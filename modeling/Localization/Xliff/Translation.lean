import Localization.Xliff.Document

/-! What a translator adds to a document: to every file its language, and to every unit a target. -/

namespace Localization.Xliff

/-- A list with an element behind the first so many others. -/
def placed {α : Type} (n : Nat) (x : α) (xs : List α) : List α := xs.take n ++ x :: xs.drop n

/-- Characters that a translator adds behind as many of the parts that they can follow. -/
structure Addition where
  after : Nat
  chars : List Char

/-- The additions to a document: the language of each file, as it stands between quotes, and the
target of each unit, with the blanks before it. Files are known by name, units by name and id. -/
structure Translation where
  language : Text → Option Addition
  target : Text → Text → Option Addition

/-- The lines of a unit with a target, which stands behind one of the lines before the last. -/
def Addition.into (target : Option Addition) (lines : List Text) : List Text :=
  match target with
  | none => lines
  | some a => lines.modify (min a.after (lines.length - 2)) (· ++ .ofChars a.chars)

/-- The attributes of a file in a translated document. -/
def attributesOf (source name : Text) : List Text :=
  [Text.ofString " original=\"" ++ name ++ "\"",
    Text.ofString " source-language=\"" ++ source ++ "\"", " datatype=\"plaintext\""]

/-- The attributes of a file with the language that its messages are translated to. -/
def Addition.among (language : Option Addition) (attributes : List Text) : List Text :=
  match language with
  | none => attributes
  | some a =>
    placed a.after (Text.ofString " target-language=\"" ++ .ofChars a.chars ++ "\"") attributes

namespace Document

/-- The lines of a file with what a translator added. -/
def translatedLines? (t : Translation) (source name : Text) (units : List TransUnit) :
    Option (List Text) := do
  let body ← (TransUnit.sorted units).mapM fun u =>
    (u.lines? source).map (Addition.into (t.target name u.id))
  return (Text.ofString "  <file" ++
    (Addition.among (t.language name) (attributesOf source name)).flatten ++ "><body>") ::
      body.flatten ++ [Text.ofString "  </body></file>"]

/-- The text of a document with what a translator added. -/
def translated? (t : Translation) (d : Document) : Option Text := do
  let files ← (Text.sortBy16 (·.1) d.files).mapM fun f =>
    translatedLines? t d.sourceLanguage f.1 f.2
  return Text.join crlf ([Text.ofString "<?xml version=\"1.0\" encoding=\"utf-8\"?>",
    Text.ofString "<xliff version=\"1.2\" xmlns=\"urn:oasis:names:tc:xliff:document:1.2\">"] ++
    files.flatten ++ [Text.ofString "</xliff>"])

end Document

end Localization.Xliff
