import Localization.Xml.Content
import Localization.Xml.Prolog

/-! Whole documents: declarations, one element, and nothing but comments and instructions after
it. -/

namespace Localization.Xml

/-- Checks what follows the element of a document. -/
def checkTail : List Placed → LexemesEnd → Except Fault Unit
  | [], .endOfText => .ok ()
  | [], .fault f => .error f
  | [], .element rest => .error ⟨.junk, rest.length⟩
  | p :: ps, last =>
    match p.lexeme with
    | .blanks | .comment | .instruction => checkTail ps last
    | _ => .error ⟨.junk, p.left⟩

/-- The root element of a document, which nothing but comments and instructions may follow. -/
def readDocument (document : List Char) : Except Fault Element := do
  let (d, rest) ← Prolog.read document
  let (e, rest) ← Content.element d rest
  let (ls, last) := lexemes (rest.length + 1) rest
  checkTail ls last
  return e

end Localization.Xml
