import Localization.Markdown.Delimiter

/-! The text inside a block: plain text, code, emphasis, links and images. -/

namespace Localization.Markdown

inductive Mark where
  | emphasis | strong | strike
  deriving Repr, DecidableEq

/-- A part of the text of a block. Emphasis is a pair of parts, of which one begins and one ends
it. -/
inductive Span where
  | text (text : List Char)
  /-- Characters written as an escape or as a reference. -/
  | literal (text : List Char)
  | code (text : List Char)
  | softBreak
  | hardBreak
  | opened (mark : Mark)
  | closed (mark : Mark)
  | link (href title : List Char) (body : List Span)
  | image (source title alternative : List Char)

/-- The text that stands in for an image whose description the spans are. Code and literals are left
out. -/
def Span.alternative : List Span → List Char
  | [] => []
  | .text cs :: rest => cs ++ alternative rest
  | .softBreak :: rest => '\n' :: alternative rest
  | .hardBreak :: rest => '\n' :: alternative rest
  | .link _ _ body :: rest => alternative body ++ alternative rest
  | .image _ _ cs :: rest => cs ++ alternative rest
  | _ :: rest => alternative rest

/-- A part of a text in which it is not yet known what signs of emphasis stand for. -/
inductive Part where
  | span (span : Span)
  | sign (sign : Delimiter)
  /-- The odd sign of a run of those that strike out two by two. -/
  | odd

namespace Part

/-- The text of signs that stand for themselves. -/
def signText (d : Delimiter) : Span := .text (if d.sign = '~' then ['~', '~'] else [d.sign])

/-- The spans that a delimiter comes to. -/
def ofRole : Delimiter.Role → List Span
  | .opensEmphasis => [.opened .emphasis]
  | .closesEmphasis => [.closed .emphasis]
  | .opensStrong => [.opened .strong]
  | .closesStrong => [.closed .strong]
  | .opensStrike => [.opened .strike]
  | .closesStrike => [.closed .strike]
  | .absorbed => []

/-- Spans of the parts, where `held` says that an odd sign waits until all strokes have ended. -/
def settle (held : Bool) : List (Part × List Span) → List Span
  | [] => if held then [.text ['~']] else []
  | (part, spans) :: rest =>
    match part, spans with
    | .odd, _ => (if held then [.text ['~']] else []) ++ settle true rest
    | _, [.closed .strike] => .closed .strike :: settle held rest
    | _, _ => (if held then [.text ['~']] else []) ++ spans ++ settle false rest

/-- The spans of parts, with signs of emphasis matched. -/
def spans (parts : List Part) : List Span :=
  let signs := (parts.mapIdx fun n part => (n, part)).filterMap fun (n, part) =>
    match part with
    | .sign d => some (n, d)
    | _ => none
  let roles := Delimiter.roles signs
  settle false <| parts.mapIdx fun n part => (part,
    match part with
    | .span s => [s]
    | .odd => []
    | .sign d => match roles.lookup n with
      | some role => ofRole role
      | none => [signText d])

end Part

end Localization.Markdown
