import Localization.Script.Call
import Localization.Text.Utf8

/-! Templates with substitutions. A template is encoded text and the places of its substitutions in
it, for which markers with numbers are put in, from the last one to the first; what comes of this is
decoded and read. -/

namespace Localization.Script

/-- A template as it stands in a script: its bytes, from backtick to backtick, and where in them each
substitution begins and ends. -/
structure TaggedTemplate where
  source : List UInt8
  substitutions : List (Nat × Nat)

/-- What is put in for a substitution. -/
def marker (index : Nat) : List Char := '{' :: (toString index).toList ++ ['}']

/-- What is put in for a substitution, as text. -/
def markerText (index : Nat) : Text := .ofChars (marker index)

/-- Puts a marker in for the bytes between two places. -/
def splice (source : List UInt8) (span : Nat × Nat) (index : Nat) : List UInt8 :=
  source.take span.1 ++ Utf8.encode (marker index) ++ source.drop span.2

/-- The bytes of a template with markers. The last one is put in first, so that the places of those
before it stay right. -/
def TaggedTemplate.marked (t : TaggedTemplate) : List UInt8 :=
  t.substitutions.zipIdx.foldr (fun s source => splice source s.1 s.2) t.source

/-- Why a template has no text. -/
inductive TemplateError where
  | encoding (fault : Utf8.Fault)
  | escape (error : EscapeError)

/-- The text of a template, with numbers for its substitutions. -/
def TaggedTemplate.render (t : TaggedTemplate) : Except TemplateError Text := do
  let cs ← (Utf8.decode t.marked).mapError .encoding
  (unescape (unixLines (cs.drop 1).dropLast)).mapError .escape

/-- The characters of a template without its backticks: those before the first substitution, then
each substitution with those behind it. -/
structure Pieces where
  first : List Char
  rest : List (List Char × List Char)

namespace Pieces

/-- The parts between the substitutions. -/
def statics (p : Pieces) : List (List Char) := p.first :: p.rest.map Prod.snd

/-- The characters of a template between its backticks. -/
def inside (p : Pieces) : List Char := p.first ++ p.rest.flatMap fun s => s.1 ++ s.2

/-- The places of substitutions, the first of which begins at `start`. -/
def spansFrom (start : Nat) : List (List Char × List Char) → List (Nat × Nat)
  | [] => []
  | (s, q) :: rest =>
    let stop := start + (Utf8.encode s).length
    (start, stop) :: spansFrom (stop + (Utf8.encode q).length) rest

/-- The template that has these characters between backticks. -/
def tagged (p : Pieces) : TaggedTemplate where
  source := Utf8.encode ('\x60' :: p.inside ++ ['\x60'])
  substitutions := spansFrom (Utf8.encode ('\x60' :: p.first)).length p.rest

/-- The characters of a substitution that has these parts. -/
def substituted : List Tree → List Char
  | .leaf .source _ s :: _ => s
  | _ => []

/-- The pieces of a template in a tree. -/
def ofParts : List Tree → Pieces
  | [] => ⟨[], []⟩
  | .node .substitution _ below :: parts =>
    ⟨[], (substituted below, (ofParts parts).first) :: (ofParts parts).rest⟩
  | part :: parts => ⟨part.text ++ (ofParts parts).first, (ofParts parts).rest⟩

end Pieces

end Localization.Script
