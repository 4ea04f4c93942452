import Localization.Bundle
import Localization.Digest.Sha256
import Localization.Text.Order
import Localization.Xliff.Entity

/-! Exchange documents for translators: named files of units, each a message with an id and a note.
The key of a message that begins with its text is replaced by a digest, since source and note say
what it was. Lines end with CR and LF, and the last line has no end. -/

namespace Localization.Xliff

/-- A message of a document, under its id. -/
structure TransUnit where
  id : Text
  message : Text
  comment : Option Text
  deriving DecidableEq, Repr

/-- A document: units under the names of files, in the order in which the names were first added. -/
structure Document where
  sourceLanguage : Text := Text.ofString "en"
  files : Fields (List TransUnit) := []
  deriving Repr

/-- What every digest in an id begins with. -/
def hashMark : Text := Text.ofString "++CODE++"

/-- The length of a mark and a digest. -/
def hashedLength : Nat := 72

/-- The digest of a key: of its UTF-16 code units the low bytes count. -/
def hashId (key : Text) : Text :=
  hashMark ++ Text.ofChars (Sha256.hexDigest (key.units16.map UInt8.ofNat))

def crlf : Text := [.char '\r', .char '\n']

/-- A member of a sequence with entities: a single code point is encoded, and longer text stays. -/
def encodedMember (t : Text) : Text := if t.length = 1 then Entity.encode t else t

/-- A part of a value as text with entities: a string, or the members of a sequence of strings. -/
def encodedPart (v : Json) : Except ShapeError Text :=
  match v with
  | .string t => .ok (Entity.encode t)
  | v =>
    match v.items? with
    | some items =>
      match Bundle.texts? items with
      | some ts => .ok (ts.flatMap encodedMember)
      | none => .error .notText
    | none => .error .notText

/-- The note of comments, one line for each; none if there are no comments. -/
def noteOf (comments : Option Json) : Except ShapeError (Option Text) :=
  match comments with
  | none => .ok none
  | some v =>
    if !v.isPresent then .ok none
    else
      match v.items? with
      | some items => (items.mapM encodedPart).map fun ts => some (Text.join crlf ts)
      | none => .error .notText

namespace TransUnit

/-- The unit of an entry of a bundle. -/
def ofEntry (key : Text) (v : Json) : Except ShapeError TransUnit := do
  let message ← Bundle.messageOf v
  let message ← encodedPart message
  let comment ← noteOf (Bundle.commentOf v)
  return ⟨Entity.encode key, message, comment⟩

/-- The id that is written: a digest if the key begins with the message. -/
def writtenId (u : TransUnit) : Text := if u.message.isPrefixOf u.id then hashId u.id else u.id

/-- The lines of a unit; none if its key or its message is empty. -/
def lines? (language : Text) (u : TransUnit) : Option (List Text) :=
  if u.id.isEmpty || u.message.isEmpty then none
  else
    let note := match u.comment with
      | some c => if c.isEmpty then [] else [Text.ofString "      <note>" ++ c ++ "</note>"]
      | none => []
    some ([Text.ofString "    <trans-unit id=\"" ++ Entity.encode u.writtenId ++ "\">",
        Text.ofString "      <source xml:lang=\"" ++ language ++ "\">" ++ u.message ++
          "</source>"] ++
      note ++ [Text.ofString "    </trans-unit>"])

/-- Units in the order in which they are written: by message, the later of equals first. -/
def sorted (units : List TransUnit) : List TransUnit := Text.sortBy16 (·.message) units.reverse

end TransUnit

namespace Document

/-- Adds a bundle under the name of a file, in place of what the name had. An empty bundle adds
nothing. -/
def add (d : Document) (name : Text) (b : Bundle) : Except ShapeError Document :=
  if b.isEmpty then .ok d
  else do
    let units ← b.mapM fun e => TransUnit.ofEntry e.1 e.2
    return { d with files := d.files.put name units }

/-- The document of bundles under the names of files. -/
def ofBundles (sourceLanguage : Text) (bundles : Fields Bundle) : Except ShapeError Document :=
  bundles.foldlM (fun d e => d.add e.1 e.2) { sourceLanguage }

/-- The lines of a file with its messages; none if one of them has no key or no text. -/
def fileLines? (language name : Text) (units : List TransUnit) : Option (List Text) := do
  let body ← (TransUnit.sorted units).mapM (TransUnit.lines? language)
  return (Text.ofString "  <file original=\"" ++ name ++ "\" source-language=\"" ++ language ++
    "\" datatype=\"plaintext\"><body>") :: body.flatten ++ [Text.ofString "  </body></file>"]

/-- The text of a document, with the files in the order of their names; none if a unit has no key or
no message. -/
def render? (d : Document) : Option Text := do
  let files ← (Text.sortBy16 (·.1) d.files).mapM fun f => fileLines? d.sourceLanguage f.1 f.2
  return Text.join crlf ([Text.ofString "<?xml version=\"1.0\" encoding=\"utf-8\"?>",
    Text.ofString "<xliff version=\"1.2\" xmlns=\"urn:oasis:names:tc:xliff:document:1.2\">"] ++
    files.flatten ++ [Text.ofString "</xliff>"])

/-- What is said of a document with a unit that has no key or no message. -/
def emptyUnitMessage : Text := .ofString "No item ID or value specified."

end Document

/-! A writer is asked to add bundles and to render, again and again. -/

/-- What is asked of a writer. -/
inductive Call where
  | add (name : Text) (b : Bundle)
  | render

namespace Call

/-- The document after a call. A bundle that cannot be added leaves it as it was. -/
def apply (d : Document) : Call → Document
  | .add name b => (d.add name b).toOption.getD d
  | .render => d

end Call

/-- The document of a new writer after calls. -/
def Document.after (source : Text) (calls : List Call) : Document :=
  calls.foldl Call.apply { sourceLanguage := source }

end Localization.Xliff
