import Localization.Markdown.Character
import Localization.Url.Link

/-! What follows the text of a link: an address in angle brackets or alone, and a title in quotes or
parentheses. Every function here answers with the part it has read and with the characters after
it. -/

namespace Localization.Markdown.Address

/-- Up to a closing angle bracket on the same line. -/
def angled? : List Char → Option (List Char × List Char)
  | [] => none
  | '\\' :: c :: cs => (angled? cs).map fun (part, rest) => ('\\' :: c :: part, rest)
  | c :: cs =>
    if c = '>' then some ([], cs)
    else if c = '\n' || c = '<' then none
    else (angled? cs).map fun (part, rest) => (c :: part, rest)

/-- An address alone ends at a blank, a control character or a parenthesis that closes none of its
own. Its own parentheses are balanced and at most 32 deep. -/
def alone? (depth : Nat) : List Char → Option (List Char × List Char)
  | [] => if depth = 0 then some ([], []) else none
  | '\\' :: c :: cs =>
    if c = ' ' then if depth = 0 then some ([], '\\' :: c :: cs) else none
    else (alone? depth cs).map fun (part, rest) => ('\\' :: c :: part, rest)
  | c :: cs =>
    if c.toNat ≤ 0x20 || c.toNat = 0x7F || c = ')' && depth = 0 then
      if depth = 0 then some ([], c :: cs) else none
    else if c = '(' && 32 ≤ depth then none
    else
      let depth := if c = '(' then depth + 1 else if c = ')' then depth - 1 else depth
      (alone? depth cs).map fun (part, rest) => (c :: part, rest)

/-- The address of a link, between angle brackets or up to the next blank. -/
def destination? : List Char → Option (List Char × List Char)
  | '<' :: cs => (angled? cs).map fun (part, rest) => (plain part, rest)
  | cs =>
    match alone? 0 cs with
    | some (c :: part, rest) => some (plain (c :: part), rest)
    | _ => none

/-- An address as it is written into markup, if it may be linked to. -/
def allowed? (address : List Char) : Option (List Char) :=
  let href := Url.normalized address
  if Url.isAllowed href then some href else none

/-- Up to the sign that closes a title. A title in parentheses holds no opening one. -/
def closed? (close : Char) : List Char → Option (List Char × List Char)
  | [] => none
  | '\\' :: c :: cs => (closed? close cs).map fun (part, rest) => ('\\' :: c :: part, rest)
  | c :: cs =>
    if c = close then some ([], cs)
    else if c = '(' && close = ')' then none
    else (closed? close cs).map fun (part, rest) => (c :: part, rest)

def title? : List Char → Option (List Char × List Char)
  | [] => none
  | c :: cs =>
    if c = '"' || c = '\x27' || c = '(' then
      (closed? (if c = '(' then ')' else c) cs).map fun (part, rest) => (plain part, rest)
    else none

def skipBlanks (cs : List Char) : List Char := cs.dropWhile fun c => isSpace c || c == '\n'

/-- The address and the title in the parentheses after the text of a link. -/
inductive Target where
  | closed (href title rest : List Char)
  /-- What stands at `rest` does not belong there. -/
  | broken (rest : List Char)
  | missing

/-- What stands in the parentheses of a link. -/
def target (cs : List Char) : Target :=
  let cs := skipBlanks cs
  if cs.isEmpty then .missing
  else
    let finish (href title rest : List Char) : Target :=
      match rest with
      | ')' :: rest => .closed href title rest
      | rest => .broken rest
    match destination? cs with
    | none => finish [] [] cs
    | some (address, after) =>
      match allowed? address with
      | none => finish [] [] cs
      | some href =>
        let rest := skipBlanks after
        match title? rest with
        | some (title, end_) =>
          if rest.length < after.length then finish href title (skipBlanks end_)
          else finish href [] rest
        | none => finish href [] rest

end Localization.Markdown.Address
