import Localization.Text.Replace
import Localization.Url.Percent
import Localization.Url.Punycode

/-! Addresses of requests: an address with a query of named values in place of its own. -/

namespace Localization.Url

/-- The characters of a value in a query. -/
def queryChar (c : Char) : List Char :=
  if c.isAlphanum || c == '_' || c == '.' || c == '-' || c == '~' then [c]
  else if c = ' ' then ['+']
  else Percent.escapeChar c

/-- Names with their values, as the query of an address. -/
def query (values : List (String × List Char)) : List Char :=
  ['&'].intercalate (values.map fun (name, value) =>
    name.toList.flatMap queryChar ++ '=' :: value.flatMap queryChar)

/-- Characters with all escaped that are not printed in ASCII or are among `refused`. -/
def escapeBut (refused : String) (cs : List Char) : List Char :=
  cs.flatMap fun c =>
    if 0x20 < c.toNat && c.toNat < 0x7F && !refused.toList.contains c then [c]
    else Percent.escapeChar c

/-- The segments of a path without those that stand for the same place or the one above. -/
def settle (above : List (List Char)) : List (List Char) → List (List Char)
  | [] => above.reverse
  | s :: rest =>
    if s = ['.'] then settle above rest
    else if s = ['.', '.'] then settle (if above = [[]] then above else above.drop 1) rest
    else settle (s :: above) rest

/-- A path without parts that stay where they are or go up. -/
def settledPath (cs : List Char) : List Char :=
  ['/'].intercalate (settle [] (splitAt ['/'] cs))

/-- The ports that need not be written. -/
def standardPorts : List (String × Nat) :=
  [("ftp", 21), ("http", 80), ("https", 443), ("ws", 80), ("wss", 443)]

/-- A port with its colon, if it needs to be named. Nothing if it is no number. -/
def port? (scheme cs : List Char) : Option (List Char) :=
  if cs.isEmpty then some []
  else if !cs.all Char.isDigit then none
  else
    let n := cs.foldl (fun n c => 10 * n + (c.toNat - '0'.toNat)) 0
    some (if standardPorts.lookup (String.ofList scheme) = some n then []
      else ':' :: Nat.toDigits 10 n)

/-- A host in small letters and in ASCII. -/
def asciiHost (cs : List Char) : List Char :=
  let lower := cs.map Char.toLower
  if lower.all fun c => c.toNat < 0x80 then escapeBut "#/<>?@[]^" lower
  else ['.'].intercalate ((splitAt ['.'] lower).map fun l =>
    if l.any fun c => 0x80 ≤ c.toNat then "xn--".toList ++ Punycode.encode l else l)

/-- The user, the host and the port of an address. -/
def authority? (scheme cs : List Char) : Option (List Char) := do
  let name := (cs.reverse.takeWhile (· ≠ '@')).reverse
  let user := cs.take (cs.length - name.length - 1)
  let isBracketed := name.head? = some '[' && name.contains ']'
  let inner := (name.reverse.dropWhile (· ≠ ']')).reverse
  let host := if isBracketed then inner else name.takeWhile (· ≠ ':')
  let after := name.drop host.length
  let port ← port? scheme (if after.head? = some ':' then after.drop 1 else after)
  let host := if isBracketed then host.map Char.toLower else asciiHost host
  return (if user.isEmpty then [] else
    escapeBut "\"#/;<=>?@[\\]^\x60\x7b|\x7d" user ++ ['@']) ++ host ++ port

/-- An address with a query in place of its own. Nothing if it is no address. One without a host is
taken as a path. -/
def withQuery? (address query : List Char) : Option (List Char) := do
  if address.any fun c => c.toNat < 0x20 || c.toNat = 0x7F then none
  let (before, fragment) := address.span (· ≠ '#')
  let before := before.takeWhile (· ≠ '?')
  let (name, rest) := before.span fun c => c.isAlphanum || c == '+' || c == '.' || c == '-'
  let hasScheme := rest.head? = some ':' && name.head?.any Char.isAlpha
  let scheme := if hasScheme then name.map Char.toLower else []
  let rest := if hasScheme then rest.drop 1 else before
  let hasHost := ['/', '/'].isPrefixOf rest
  let (host, path) := if hasHost then (rest.drop 2).span (· ≠ '/') else ([], rest)
  let host ← authority? scheme host
  if hasScheme && !host.isEmpty then
    return scheme ++ ':' :: '/' :: '/' :: host ++ escapeBut "\"<>\x60\x7b\x7d" (settledPath path) ++
      '?' :: query ++ escapeBut "\"<>\x60" fragment
  else
    if !hasScheme && host.isEmpty && (['/', '/'].isPrefixOf path || path.head? = some ':') then none
    return '/' :: escapeBut "\"<>\x60\x7b\x7d" (path.dropWhile (· = '/')) ++ '?' :: query

end Localization.Url
