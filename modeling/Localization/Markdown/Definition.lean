import Localization.Markdown.Address
import Localization.Markdown.Inline

/-! Definitions: a label in brackets, a colon, an address, and perhaps a title. -/

namespace Localization.Markdown.Definition

/-- The characters up to the bracket that closes a label, and those after it. A label holds no
opening bracket. -/
def label? : List Char → Option (List Char × List Char)
  | [] => none
  | '\\' :: c :: cs => (label? cs).map fun (label, rest) => ('\\' :: c :: label, rest)
  | c :: cs =>
    if c = ']' then some ([], cs)
    else if c = '[' then none
    else (label? cs).map fun (label, rest) => (c :: label, rest)

/-- The address at the start of characters. It ends on its line. -/
def destination? (cs : List Char) : Option (List Char × List Char) :=
  let line := cs.takeWhile (· ≠ '\n')
  (Address.destination? line).map fun (address, rest) =>
    (address, cs.drop (line.length - rest.length))

/-- What follows blanks, if it is the end of the line. -/
def lineEnd? (cs : List Char) : Option (List Char) :=
  let rest := cs.dropWhile isSpace
  if rest.isEmpty || rest.head? = some '\n' then some rest else none

/-- The definition at the start of characters, and what follows it on its last line. A title that is
not followed by the end of a line is none, unless it is empty. -/
def read? (cs : List Char) : Option (Definition × List Char) := do
  let '[' :: cs := cs | none
  let (label, cs) ← label? cs
  let ':' :: cs := cs | none
  let (address, cs) ← destination? (Address.skipBlanks cs)
  let href ← Address.allowed? address
  let key := labelKey label
  let untitled (_ : Unit) : Option (Definition × List Char) := do
    let rest ← lineEnd? cs
    if key.isEmpty then none else some ({ label := key, href, title := [] }, rest)
  let inner := Address.skipBlanks cs
  match if inner.length < cs.length then Address.title? inner else none with
  | none => untitled ()
  | some (title, rest) =>
    match lineEnd? rest with
    | some rest => if key.isEmpty then none else some ({ label := key, href, title }, rest)
    | none => if title.isEmpty then none else untitled ()

end Localization.Markdown.Definition
