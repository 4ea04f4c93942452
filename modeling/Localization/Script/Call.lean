import Localization.Script.Binding
import Localization.Script.Escape
import Localization.Bundle

/-! Calls of the message function and the messages in their arguments. -/

namespace Localization.Script

/-- Whether a node calls the message function through a binding; if so, its arguments or its
template. -/
def Binding.called? (v : Vocabulary) : Binding → Tree → Option Tree
  | .messages n, .node .call _ (.node .member _ [.leaf .identifier _ o, .leaf .propertyName _ p]
      :: args :: _) => if o = sought n ∧ p = sought v.callName then some args else none
  | .host n, .node .call _ (.node .member _ [.node .member _ [.leaf .identifier _ o,
      .leaf .propertyName _ q], .leaf .propertyName _ p] :: args :: _) =>
    if o = sought n ∧ q = sought v.messageNamespace ∧ p = sought v.callName then some args
    else none
  | .function n, .node .call _ (.leaf .identifier _ f :: args :: _) =>
    if f = sought n then some args else none
  | _, _ => none

/-- Why a call holds no message that can be extracted. -/
inductive CallError where
  /-- A template with a substitution as a message or comment: the inside of the template, and its
  offset. -/
  | substitution (template : List Char) (start : Nat)
  | escape (e : EscapeError)
  deriving DecidableEq, Repr

def CallError.message : CallError → List Char
  | .substitution t _ => "Unexpected pattern in l10n.t('".toList ++ t ++
      ("'). Template literals with substitutions are not supported as message arguments. " ++
       "Use a double-quoted string with positional args instead, " ++
       "e.g. l10n.t(\"Hello \x7b0\x7d\", name).").toList
  | .escape e => e.message.toList

/-- The inside of a template in which the substitutions are numbered, from `index` on. -/
def numbered (index : Nat) : List Tree → List Char
  | [] => []
  | .node .substitution _ _ :: parts =>
    '{' :: (toString index).toList ++ '}' :: numbered (index + 1) parts
  | part :: parts => part.text ++ numbered index parts

/-- Every carriage return before a line feed left out. -/
def unixLines : List Char → List Char
  | '\r' :: '\n' :: cs => '\n' :: unixLines cs
  | c :: cs => c :: unixLines cs
  | [] => []

/-- The text of a template, with numbers for its substitutions. -/
def renderTemplate (parts : List Tree) : Except EscapeError Text :=
  unescape (unixLines (numbered 0 parts))

/-- The text of a string, or of a template that has no substitution; nothing for other nodes. -/
def literalText : Tree → Except CallError (Option Text)
  | .node .string s parts =>
    ((unescape (Tree.node .string s parts).text).map some).mapError .escape
  | .node .template s parts =>
    if parts.any fun p => p.kind = .substitution then
      .error (.substitution (Tree.node .template s parts).text s)
    else ((renderTemplate parts).map some).mapError .escape
  | _ => .ok none

/-- The comments of a message: a literal, or the literals in an array; nothing for other nodes. -/
def commentTexts : Tree → Except CallError (Option (List Text))
  | .node .array _ items => (items.mapM literalText).map fun ts => some ts.reduceOption
  | t => (literalText t).map fun o => o.map fun c => [c]

/-- The name of a property of an object. -/
def keyName : Tree → List Char
  | .node .string s parts => (Tree.node .string s parts).text
  | .leaf .propertyName _ n => n
  | _ => []

/-- The message and the comments read so far, after the members of an object. -/
def readMembers (message : Option Text) (comments : Option (List Text)) :
    List Tree → Except CallError (Option Message)
  | [] => .ok (message.map fun m => ⟨m, comments.getD []⟩)
  | .node .pair _ [key, value] :: rest =>
    if keyName key = "message".toList then do readMembers (← literalText value) comments rest
    else if keyName key = "comment".toList then do readMembers message (← commentTexts value) rest
    else readMembers message comments rest
  | _ :: rest => readMembers message comments rest

/-- The message in the arguments or the template of a call; nothing if the call carries none. -/
def classify : Tree → Except CallError (Option Message)
  | .node .template _ parts => ((renderTemplate parts).map fun t => some ⟨t, []⟩).mapError .escape
  | .node .arguments _ items =>
    match items.filter (·.kind ≠ .comment) with
    | .leaf .number _ digits :: _ => .ok (some ⟨.ofChars digits, []⟩)
    | .node .object _ members :: _ => readMembers none none members
    | first :: _ => (literalText first).map fun o => o.map fun t => ⟨t, []⟩
    | [] => .ok none
  | _ => .ok none

end Localization.Script
