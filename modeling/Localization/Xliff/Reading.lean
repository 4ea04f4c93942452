import Localization.Notice
import Localization.Text.Case
import Localization.Xliff.Document
import Localization.Xml.Document

/-! Translated documents read back: for each file its name, its language and the translated messages
under their keys. A key that was replaced by a digest is made anew from source and note. -/

namespace Localization.Xliff

/-- The messages of one file in one language. -/
structure LocalizedFile where
  name : Text
  language : Text
  messages : Fields Text
  deriving DecidableEq, Repr

/-- Why a document cannot be read. -/
inductive ReadError where
  | notXml (fault : List Char)
  | missingNodes
  | missingOriginal
  | missingLanguage
  | missingTarget
  | missingSource
  | missingId
  deriving DecidableEq, Repr

def ReadError.message : ReadError → Text
  | .notXml fault => .ofString "Invalid XML in XLIFF file: " ++ .ofChars fault
  | .missingNodes =>
    .ofString "XLIFF file does not contain \"xliff\" or \"file\" node(s) required for parsing."
  | .missingOriginal =>
    .ofString ("XLIFF file node does not contain original attribute to determine " ++
      "the original location of the resource file.")
  | .missingLanguage =>
    .ofString ("XLIFF file node does not contain target-language attribute to " ++
      "determine translated language.")
  | .missingTarget =>
    .ofString ("XLIFF file does not contain full localization data. target node in one " ++
      "of the trans-unit nodes is not present.")
  | .missingSource =>
    .ofString ("XLIFF file does not contain full localization data. source node in one " ++
      "of the trans-unit nodes is not present.")
  | .missingId => .ofString "XLIFF trans-unit node does not contain id attribute."

/-- Text without its line ends: LF, with CR before it or without. -/
def withoutLineEnds : List Char → List Char
  | [] => []
  | '\r' :: '\n' :: cs => withoutLineEnds cs
  | '\n' :: cs => withoutLineEnds cs
  | c :: cs => c :: withoutLineEnds cs

/-- The characters of the first element of a name inside an element; none if there is none. -/
def charsIn (e : Xml.Element) (name : String) : List Char :=
  match e.child? name with
  | some c => c.chars
  | none => []

/-- Whether an id has the form of a mark with a digest. -/
def isHashed (id : Text) : Bool := hashMark.isPrefixOf id && id.length == hashedLength

/-- The key of a message: its id decoded, or what the message and its note make of a hashed one. -/
def unitKey (unit : Xml.Element) : Except ReadError Text :=
  match unit.attribute? "id" with
  | none => .error .missingId
  | some id =>
    if !isHashed (.ofChars id) then .ok (Entity.decode (.ofChars id))
    else
      let source := charsIn unit "source"
      if source.isEmpty then .error .missingSource
      else
        let note := charsIn unit "note"
        .ok (.ofChars (if note.isEmpty then source else source ++ '/' :: withoutLineEnds note))

/-- The key and the target text of a unit; nothing if it is not translated. -/
def unitMessage (unit : Xml.Element) : Except ReadError (Option (Text × Text)) :=
  match unit.child? "target" with
  | none => .ok none
  | some target =>
    if target.chars.isEmpty then .error .missingTarget
    else (unitKey unit).map fun key => some (key, Entity.decode (.ofChars target.chars))

/-- The target texts of units, in the order of their keys. -/
def messagesOf (units : List Xml.Element) : Except ReadError (Fields Text) :=
  (units.mapM unitMessage).map fun found =>
    Text.sortBy16 (·.1) (Fields.ofList (found.filterMap id))

/-- The messages of a file, body by body. -/
def unitsOf (file : Xml.Element) : List Xml.Element :=
  (file.children "body").flatMap fun body => body.children "trans-unit"

/-- The target texts of a file; nothing but its name if it has no units. -/
def fileOf (file : Xml.Element) : Except ReadError (Text × Option LocalizedFile) :=
  match (file.attribute? "original").getD [] with
  | [] => .error .missingOriginal
  | name =>
    match (file.attribute? "target-language").getD [] with
    | [] => .error .missingLanguage
    | language =>
      let units := unitsOf file
      if units.isEmpty then .ok (.ofChars name, none)
      else
        (messagesOf units).map fun messages =>
          (.ofChars name, some ⟨.ofChars name, Text.lower (.ofChars language), messages⟩)

/-- The notice that a file without units is left out. -/
def skipNotice (name : Text) : Notice :=
  ⟨.debug, "l10ndev.xliff",
    .ofString "Skipping file '" ++ name ++ .ofString "' without trans-units"⟩

/-- The translated files in the order of the document, and notices of those left out. -/
def filesOf : List Xml.Element → Except ReadError (List LocalizedFile) × List Notice
  | [] => (.ok [], [])
  | file :: rest =>
    match fileOf file with
    | .error e => (.error e, [])
    | .ok (name, none) =>
      let (files, ns) := filesOf rest
      (files, skipNotice name :: ns)
    | .ok (_, some f) =>
      let (files, ns) := filesOf rest
      (files.map (f :: ·), ns)

/-- Files in the order of their names. -/
def sortFiles (files : List LocalizedFile) : List LocalizedFile :=
  files.mergeSort fun a b => Text.nameLe a.name b.name

/-- The translated files in a document that has been read as an element. -/
def readElement (root : Xml.Element) : Except ReadError (List LocalizedFile) × List Notice :=
  let files := root.children "file"
  if root.name ≠ "xliff".toList || files.isEmpty then (.error .missingNodes, [])
  else
    let (r, ns) := filesOf files
    (r.map sortFiles, ns)

/-- Whether a character may stand before a document. -/
def isMargin (c : Char) : Bool := c == '\ufeff' || c == ' ' || c == '\t' || c == '\r' || c == '\n'

/-- The files of a document with what is noticed in it. -/
def read (document : List Char) : Except ReadError (List LocalizedFile) × List Notice :=
  let document := document.dropWhile isMargin
  match Xml.readDocument document with
  | .error f => (.error (.notXml (f.message document)), [])
  | .ok root => readElement root

/-- The language that an older name stands for. -/
def modernLanguage? (language : Text) : Option Text :=
  if language = Text.ofString "zh-hans" then some "zh-cn"
  else if language = Text.ofString "zh-hant" then some "zh-tw"
  else none

/-- The notice that a language has a newer name. -/
def languageNotice (f : LocalizedFile) (language : Text) : Notice :=
  ⟨.debug, "l10ndev.api", .ofString "Mapping language " ++ f.language ++ .ofString " to " ++
    language ++ .ofString " for " ++ f.name⟩

/-- A file with the newer name of its language. -/
def modernize (f : LocalizedFile) : LocalizedFile × List Notice :=
  match modernLanguage? f.language with
  | some language => ({ f with language }, [languageNotice f language])
  | none => (f, [])

/-- The translated files in a document, with the newer names of languages. -/
def importDocument (document : List Char) : Except ReadError (List LocalizedFile) × List Notice :=
  match read document with
  | (.error e, ns) => (.error e, ns)
  | (.ok files, ns) =>
    let modern := files.map modernize
    (.ok (modern.map (·.1)), ns ++ modern.flatMap (·.2))

end Localization.Xliff
