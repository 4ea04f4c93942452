import Localization.Text.Blank
import Localization.Text.Replace
import Localization.Url.Percent
import Localization.Url.Punycode

/-! Addresses of links: their parts, the form in which they are written into markup, the form in
which they are shown, and the schemes that are refused. -/

namespace Localization.Url

/-- The parts of an address. Put together again they give the address back, but for a few marks that
stand for nothing. -/
structure Parts where
  scheme : List Char := []
  hasSlashes : Bool := false
  user : List Char := []
  host : List Char := []
  port : List Char := []
  path : List Char := []
  query : List Char := []
  fragment : List Char := []
  deriving Repr

namespace Parts

/-- The scheme that characters begin with, and what follows its colon. -/
def splitScheme (cs : List Char) : List Char × List Char :=
  let (name, rest) := cs.span fun c => c.isAlphanum || c == '.' || c == '+' || c == '-'
  match rest with
  | ':' :: rest => if name.isEmpty then ([], cs) else (name ++ [':'], rest)
  | _ => ([], cs)

/-- A scheme without a host. -/
def isHostless (scheme : List Char) : Bool := scheme == "javascript:".toList

/-- Schemes after which a host is named by two slashes only. -/
def needsSlashes (scheme : List Char) : Bool :=
  ["http:", "https:", "ftp:", "gopher:", "file:"].any fun s => s.toList == scheme

/-- Splits at the last `@` before the host ends, if there is one. -/
def splitUser (cs : List Char) : List Char × List Char :=
  let before := cs.takeWhile fun c => c ≠ '/' && c ≠ '?' && c ≠ '#'
  if before.contains '@' then
    let host := (before.reverse.takeWhile (· ≠ '@')).reverse
    let user := before.take (before.length - host.length - 1)
    (user, cs.drop (user.length + 1))
  else ([], cs)

/-- A character that ends the host of an address. -/
def endsHost (c : Char) : Bool := "%/?;#'\x7b\x7d|\\^\x60<>\" \r\n\t".toList.contains c

/-- Splits a port from the end of a host. A colon without digits is dropped. -/
def splitPort (cs : List Char) : List Char × List Char :=
  let digits := (cs.reverse.takeWhile Char.isDigit).reverse
  let before := cs.take (cs.length - digits.length)
  match before.getLast? with
  | some ':' => (before.dropLast, digits)
  | _ => (cs, [])

def isLabelChar (c : Char) : Bool := c.isAlphanum || c == '+' || c == '_' || c == '-'

/-- Whether a label of a host is short enough and holds no signs. -/
def isLabel (cs : List Char) : Bool :=
  cs.length ≤ 63 && cs.all fun c => isLabelChar c || 0x80 ≤ c.toNat

/-- The labels of a host that are valid, and what follows them. -/
def validLabels : List (List Char) → List (List Char) × Option (List (List Char))
  | [] => ([], none)
  | l :: ls =>
    if isLabel l then
      let (valid, rest) := validLabels ls
      (l :: valid, rest)
    else
      let good := (l.take 63).takeWhile isLabelChar
      ([good], some (l.drop good.length :: ls))

/-- The host, and what is put back before the rest. -/
def checkHost (host : List Char) : List Char × List Char :=
  let (valid, rest) := validLabels (splitAt ['.'] host)
  match rest with
  | none => (host, [])
  | some rest => (['.'].intercalate valid, ['.'].intercalate rest)

def isBracketed (host : List Char) : Bool := host.head? == some '[' && host.getLast? == some ']'

/-- The user, the host and the port, and what follows them. -/
def splitHost (cs : List Char) : List Char × List Char × List Char × List Char :=
  let (user, cs) := splitUser cs
  let host := cs.takeWhile fun c => !endsHost c
  let host := if host.getLast? = some ':' then host.dropLast else host
  let rest := cs.drop host.length
  let (name, port) := splitPort host
  let (name, back) := if isBracketed name then (name, []) else checkHost name
  let name := if 255 < name.length then [] else name
  let name := if isBracketed name then name.dropLast.drop 1 else name
  (user, name, port, back ++ rest)

def ofChars (cs : List Char) : Parts :=
  let (scheme, rest) := splitScheme (trimBlanks cs)
  let startsSlashed := ['/', '/'].isPrefixOf rest
  let hasSlashes := startsSlashed && !isHostless scheme
  let rest := if hasSlashes then rest.drop 2 else rest
  let hasHost := !isHostless scheme && (startsSlashed || !scheme.isEmpty && !needsSlashes scheme)
  let (user, host, port, rest) := if hasHost then splitHost rest else ([], [], [], rest)
  let (rest, fragment) := rest.span (· ≠ '#')
  let (path, query) := rest.span (· ≠ '?')
  { scheme, hasSlashes, user, host, port, path, query, fragment }

def toChars (p : Parts) : List Char :=
  p.scheme ++ (if p.hasSlashes then ['/', '/'] else []) ++
    (if p.user.isEmpty then [] else p.user ++ ['@']) ++
    (if p.host.contains ':' then '[' :: p.host ++ [']'] else p.host) ++
    (if p.port.isEmpty then [] else ':' :: p.port) ++ p.path ++ p.query ++ p.fragment

/-- Whether the host is known to be the name of a computer. -/
def hasNamedHost (p : Parts) : Bool :=
  !p.host.isEmpty &&
    (p.scheme.isEmpty || ["http:", "https:", "mailto:"].any fun s => s.toList == p.scheme)

/-- The labels of a host. Some full stops of other scripts separate labels as well. -/
def labels (host : List Char) : List (List Char) :=
  splitAt ['.'] (host.map fun c => if c = '。' || c = '．' || c = '｡' then '.' else c)

def asciiLabel (l : List Char) : List Char :=
  if l.any fun c => 0x7F ≤ c.toNat then "xn--".toList ++ Punycode.encode l else l

/-- A label in its own script, if it is written in ASCII in a valid way. -/
def nativeLabel? (l : List Char) : Option (List Char) :=
  if "xn--".toList.isPrefixOf l then Punycode.decode? ((l.drop 4).map Char.toLower) else some l

end Parts

/-- An address as it is written into markup. -/
def normalized (cs : List Char) : List Char :=
  let p := Parts.ofChars cs
  let p := if p.hasNamedHost then
      { p with host := ['.'].intercalate ((Parts.labels p.host).map Parts.asciiLabel) }
    else p
  Percent.escape p.toChars

/-- An address as it is shown to a reader. -/
def shown (cs : List Char) : List Char :=
  let p := Parts.ofChars cs
  let p := if p.hasNamedHost then
      match (Parts.labels p.host).mapM Parts.nativeLabel? with
      | some labels => { p with host := ['.'].intercalate labels }
      | none => p
    else p
  Percent.unescape p.toChars

/-- Whether an address may be linked to: it runs no script and holds no data but an image. -/
def isAllowed (cs : List Char) : Bool :=
  let cs := (trimBlanks cs).map Char.toLower
  let begins (s : String) : Bool := s.toList.isPrefixOf cs
  !(["vbscript:", "javascript:", "file:", "data:"].any begins) ||
    ["data:image/gif;", "data:image/png;", "data:image/jpeg;", "data:image/webp;"].any begins

end Localization.Url
