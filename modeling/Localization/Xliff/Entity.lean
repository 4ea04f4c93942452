import Localization.Text
import Localization.Text.Replace

/-! Entities for the characters that markup and line ends claim. Decoding replaces one entity after
the other, `&amp;` last. -/

namespace Localization.Xliff.Entity

/-- The entity of a character, if it has one. -/
def entityOf? : Char → Option String
  | '"' => some "&quot;"
  | '\x27' => some "&apos;"
  | '<' => some "&lt;"
  | '>' => some "&gt;"
  | '&' => some "&amp;"
  | '\n' => some "&#10;"
  | '\r' => some "&#13;"
  | _ => none

/-- A character as it stands in a document. -/
def encodeOne : CodePoint → Text
  | .char c =>
    match entityOf? c with
    | some e => .ofString e
    | none => [.char c]
  | p => [p]

def encode (t : Text) : Text := t.flatMap encodeOne

/-- The entities in the order in which they are decoded. -/
def decodeOrder : List (Text × CodePoint) :=
  [("&quot;", .char '"'), ("&apos;", .char '\x27'), ("&lt;", .char '<'), ("&gt;", .char '>'),
    ("&#10;", .char '\n'), ("&#13;", .char '\r'), ("&amp;", .char '&')]

/-- Text with each entity replaced by its character, one entity after the other. -/
def decode (t : Text) : Text := decodeOrder.foldl (fun t e => replaceAll e.1 [e.2] t) t

end Localization.Xliff.Entity
