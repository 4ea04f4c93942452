import Localization.Script.Tree

/-! The local names through which a script reaches the message function: names that an import, a
`require` or an assignment of one binds to the host module, to the message namespace, or to the
function itself. -/

namespace Localization.Script

/-- The names of modules, namespaces and functions that messages come from. -/
structure Vocabulary where
  /-- The module that has the message namespace as a property. -/
  hostModule : List Char := "vscode".toList
  messageModule : List Char := "@vscode/l10n".toList
  /-- A name that every script with messages mentions, besides that of the namespace. -/
  hostNamespace : List Char := "vscode".toList
  messageNamespace : List Char := "l10n".toList
  callName : List Char := "t".toList
  /-- The markup attributes whose template literals are messages. -/
  literalAttributes : List (List Char) :=
    ["title", "label", "placeholder", "alt", "aria-label", "aria-description"].map String.toList

/-- The characters that a name stands for between the quotes of a query: a backslash is left out, and
some letters after one stand for controls. -/
def sought : List Char → List Char
  | '\\' :: c :: cs => escaped c :: sought cs
  | c :: cs => c :: sought cs
  | [] => []
where
  escaped (c : Char) : Char :=
    if c = 'n' then '\n' else if c = 'r' then '\r' else if c = 't' then '\t'
    else if c = '0' then '\x00' else c

namespace Vocabulary

/-- Whether a run of characters names a module with messages. -/
def isModule (v : Vocabulary) (name : List Char) : Bool :=
  name = sought v.hostModule || name = sought v.messageModule

/-- Whether a name is that of a symbol that leads to messages. -/
def isSymbol (v : Vocabulary) (name : List Char) : Bool :=
  name = sought v.messageNamespace || name = sought v.callName

end Vocabulary

/-- A name of a script, with what it stands for. -/
inductive Binding where
  | host (name : List Char)
  | messages (name : List Char)
  | function (name : List Char)
  deriving DecidableEq, Repr

namespace Binding

/-- The binding of a name to a module as a whole. -/
def ofModule (v : Vocabulary) (moduleName name : List Char) : Binding :=
  if moduleName = v.hostModule then .host name else .messages name

/-- The binding of one of a module's symbols. -/
def ofSymbol (v : Vocabulary) (symbol name : List Char) : Binding :=
  if symbol = v.messageNamespace then .messages name else .function name

/-- A binding in a tree. Bindings are ordered by `place`, the offset of the module's name, then by
`rank`, the idiom. -/
structure Found where
  place : Nat
  rank : Nat
  binding : Binding

/-- The modules that a string names, with their offsets: each run without an escape sequence that is
a module of the vocabulary. -/
def modulesIn (v : Vocabulary) : Tree → List (Nat × List Char)
  | .node .string _ parts => parts.filterMap fun
    | .leaf .fragment start t =>
      if v.isModule t then some (start, t) else none
    | _ => none
  | _ => []

/-- The modules that a call of `require` names in its first argument. -/
def required (v : Vocabulary) : Tree → List (Nat × List Char)
  | .node .call _ (.leaf .identifier _ name :: .node .arguments _ (first :: _) :: _) =>
    if name = "require".toList then modulesIn v first else []
  | _ => []

/-- The symbol of a required module that a member names. -/
def requiredSymbol (v : Vocabulary) : Tree → List (Nat × List Char)
  | .node .member _ [object, .leaf .propertyName _ p] =>
    if v.isSymbol p then (required v object).map fun m => (m.1, p)
    else []
  | _ => []

/-- The bindings that a name has by a value. -/
def ofName (v : Vocabulary) (rank : Nat) (name : List Char) (value : Tree) : List Found :=
  (required v value).map (fun m => ⟨m.1, rank, ofModule v m.2 name⟩)
    ++ (requiredSymbol v value).map (fun s => ⟨s.1, rank + 1, ofSymbol v s.2 name⟩)

/-- The bindings of the members of an object pattern whose value is a required module. -/
def ofMembers (v : Vocabulary) (members : List Tree) (value : Tree) : List Found :=
  (required v value).flatMap fun m => members.filterMap fun
    | .leaf .shorthandProperty _ p =>
      if v.isSymbol p then some ⟨m.1, 2, ofSymbol v p p⟩ else none
    | .node .pairPattern _ [.leaf .propertyName _ p, .leaf .identifier _ name] =>
      if v.isSymbol p then some ⟨m.1, 3, ofSymbol v p name⟩ else none
    | _ => none

/-- The bindings of an import of names. -/
def ofImport (v : Vocabulary) (names : List Tree) (source : Tree) : List Found :=
  (modulesIn v source).flatMap fun m => names.filterMap fun
    | .node .namespaceImport _ [.leaf .identifier _ name] => some ⟨m.1, 6, ofModule v m.2 name⟩
    | .node .importSpecifier _ (.leaf .identifier _ s :: renamed) =>
      if v.isSymbol s then
        match renamed with
        | [] => some ⟨m.1, 7, ofSymbol v s s⟩
        | [.leaf .identifier _ name] => some ⟨m.1, 7, ofSymbol v s name⟩
        | _ => none
      else none
    | _ => none

/-- The bindings that a node makes. -/
def madeBy (v : Vocabulary) : Tree → List Found
  | .node .declarator _ (.leaf .identifier _ name :: value :: _) => ofName v 0 name value
  | .node .declarator _ (.node .objectPattern _ members :: value :: _) => ofMembers v members value
  | .node .assignment _ [.leaf .identifier _ name, value] => ofName v 4 name value
  | .node .importStatement _ parts =>
    match parts.getLast? with
    | some source => ofImport v parts.dropLast source
    | none => []
  | _ => []

/-- Whether a binding comes no later than another. -/
def Found.before (a b : Found) : Bool :=
  a.place < b.place || a.place == b.place && a.rank ≤ b.rank

/-- The different bindings of a tree, in order. -/
def all (v : Vocabulary) (root : Tree) : List Binding :=
  ((root.subtrees.flatMap (madeBy v)).mergeSort Found.before).map (·.binding) |>.eraseDups

end Binding

end Localization.Script
