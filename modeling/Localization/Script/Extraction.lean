import Localization.Script.Call
import Localization.Script.Parse
import Localization.Notice

/-! The messages of a script, in the order in which they stand there, and the calls that hold
none. -/

namespace Localization.Script

/-- A script with the suffix of its file name. -/
structure Source where
  suffix : List Char
  text : List Char
  path : Option (List Char) := none

/-- The path of a script, or another name for it if the path is missing or empty. -/
def Source.placeOr (s : Source) (name : List Char) : List Char :=
  match s.path with
  | some (c :: cs) => c :: cs
  | _ => name

/-- What an extraction looks for. -/
structure Options where
  vocabulary : Vocabulary := {}
  /-- Template literals in markup attributes are messages too. -/
  literals : Bool := false

/-- A file with a suffix that no dialect has. -/
structure UnsupportedFile where
  suffix : List Char

def UnsupportedFile.message (e : UnsupportedFile) : String :=
  "File format '" ++ String.ofList e.suffix ++ "' not supported."

/-- The dialect of a file name's suffix, in which case and a leading dot do not matter. -/
def dialectOf (suffix : List Char) : Except UnsupportedFile Dialect :=
  let plain := suffix.map Char.toLower
  let name := match plain with
    | '.' :: rest => rest
    | rest => rest
  if name = "ts".toList ∨ name = "js".toList then .ok .typed
  else if name = "tsx".toList ∨ name = "jsx".toList then .ok .markup
  else .error ⟨suffix⟩

/-- A place in a script. Lines and columns count from one, and columns count bytes. -/
structure Position where
  line : Nat
  column : Nat
  deriving DecidableEq, Repr

/-- The place that is `offset` characters after `p`. -/
def Position.after (p : Position) : (offset : Nat) → List Char → Position
  | 0, _ => p
  | _ + 1, [] => p
  | n + 1, c :: cs =>
    Position.after (if c = '\n' then ⟨p.line + 1, 1⟩ else ⟨p.line, p.column + c.utf8Size⟩) n cs

/-- The place of an offset in a script. -/
def positionAt (script : List Char) (offset : Nat) : Position := Position.after ⟨1, 1⟩ offset script

/-- A call that holds no message, with the offset of its arguments. -/
structure Fault where
  start : Nat
  cause : CallError

/-- A message with the offset of the arguments or the template that it comes from. -/
structure Entry where
  start : Nat
  message : Message

/-- The arguments of the calls through a binding, in order. -/
def sitesOf (v : Vocabulary) (root : Tree) (b : Binding) : List Tree :=
  root.subtrees.filterMap (b.called? v)

/-- The trees of a list that are the first to begin where they do. -/
def firstStarts (seen : List Nat) : List Tree → List Tree
  | [] => []
  | t :: ts =>
    if seen.contains t.start then firstStarts seen ts else t :: firstStarts (t.start :: seen) ts

/-- The arguments of all calls, binding by binding, each of them once. -/
def callSites (v : Vocabulary) (root : Tree) (bindings : List Binding) : List Tree :=
  firstStarts [] (bindings.flatMap (sitesOf v root))

/-- The template literals that are values of the markup attributes of a vocabulary. -/
def literalSites (v : Vocabulary) (root : Tree) : List Tree :=
  root.subtrees.flatMap fun
    | .node .markupAttribute _ [.leaf .propertyName _ name, .node .markupExpression _ parts] =>
      if (v.literalAttributes.map sought).contains name then parts.filter (·.kind = .template) else []
    | _ => []

/-- The messages and the faults of sites, in their order. -/
def readSites : List Tree → List Entry × List Fault
  | [] => ([], [])
  | t :: ts =>
    let (entries, faults) := readSites ts
    match classify t with
    | .ok (some m) => (⟨t.start, m⟩ :: entries, faults)
    | .ok none => (entries, faults)
    | .error e => (entries, ⟨t.start, e⟩ :: faults)

/-- Puts messages into a bundle. The keys of plain messages that were there already come second. -/
def collect (b : Bundle) : List Message → Bundle × List Text
  | [] => (b, [])
  | m :: ms =>
    let again := (b.get? m.key).isSome && m.comments.isEmpty
    let (bundle, repeated) := collect (b.put m.key m.value) ms
    (bundle, if again then m.key :: repeated else repeated)

/-- What reading a script has found. -/
structure Analysis where
  /-- The messages, in the order in which they stand in the script. -/
  bundle : Bundle := []
  /-- The calls that hold no message, in the order in which they were read. -/
  faults : List Fault := []
  bindings : Nat := 0
  /-- The keys of plain messages that stand there once more. -/
  repeated : List Text := []
  /-- The script was read, and not only searched for names. -/
  parsed : Bool := false

/-- The nodes of a tree that are read: arguments of calls through bindings, then literals. -/
def sites (o : Options) (dialect : Dialect) (root : Tree) (bindings : List Binding) : List Tree :=
  callSites o.vocabulary root bindings ++
    if o.literals && dialect = .markup then literalSites o.vocabulary root else []

/-- Entries in the order in which they stand in the script. -/
def inOrder (entries : List Entry) : List Entry :=
  entries.mergeSort fun a b => a.start ≤ b.start

/-- What is found in the tree of a script of a dialect through a list of bindings. -/
def analyzeThrough (o : Options) (dialect : Dialect) (root : Tree) (bindings : List Binding) :
    Analysis :=
  let (entries, faults) := readSites (sites o dialect root bindings)
  let (bundle, repeated) := collect [] ((inOrder entries).map (·.message))
  ⟨bundle, faults, bindings.length, repeated, true⟩

/-- What is found in the tree of a script of a dialect. -/
def analyzeTree (o : Options) (dialect : Dialect) (root : Tree) : Analysis :=
  let bindings := Binding.all o.vocabulary root
  if bindings.isEmpty then { parsed := true } else analyzeThrough o dialect root bindings

/-- Whether a list of characters occurs in a script. -/
def mentions (name : List Char) : List Char → Bool
  | [] => name.isEmpty
  | c :: cs => name.isPrefixOf (c :: cs) || mentions name cs

/-- What is found in a script. One that does not mention the names of the vocabulary is not read. -/
def analyze (o : Options) (s : Source) : Except UnsupportedFile Analysis := do
  let dialect ← dialectOf s.suffix
  if !mentions o.vocabulary.messageNamespace s.text
      || !mentions o.vocabulary.hostNamespace s.text then
    return {}
  return analyzeTree o dialect (parse dialect s.text)

/-- The bindings of a script, whether it mentions the vocabulary or not. -/
def bindingsOf (v : Vocabulary) (s : Source) : Except UnsupportedFile (List Binding) := do
  let dialect ← dialectOf s.suffix
  return Binding.all v (parse dialect s.text)

/-- The bundle of an analysis, or its first fault. -/
def Analysis.outcome (a : Analysis) : Except Fault Bundle :=
  match a.faults with
  | [] => .ok a.bundle
  | f :: _ => .error f

private def noticeSource : String := "l10ndev.analyzer.analyzer"

def Dialect.name : Dialect → String
  | .typed => "typescript"
  | .markup => "tsx"

/-- The notice that the grammar of a dialect is used for the first time. -/
def grammarNotice (d : Dialect) : Notice :=
  ⟨.debug, noticeSource, .ofString ("Loading " ++ d.name ++ " grammar")⟩

/-- The notice of how many bindings a script has. -/
def bindingsNotice (count : Nat) (s : Source) : Notice :=
  ⟨.debug, noticeSource, .ofString ("Found " ++ toString count ++ " translation binding(s) in ")
    ++ .ofChars (s.placeOr s.suffix)⟩

/-- The notice that a message stands in a script more than once. -/
def repeatedNotice (s : Source) (key : Text) : Notice :=
  ⟨.debug, noticeSource, .ofString "The string '" ++ key
    ++ .ofString "' appears more than once in " ++ .ofChars (s.placeOr "script".toList)⟩

/-- The notices of an analysis, and the dialects used so far, given those used before. With
`strict`, a fault ends the analysis before repeated messages are noticed. -/
def notices (strict : Bool) (used : List Dialect) (s : Source) (a : Analysis) :
    List Notice × List Dialect :=
  match dialectOf s.suffix with
  | .error _ => ([], used)
  | .ok d =>
    if !a.parsed then ([], used)
    else
      let fresh := !used.contains d
      let opening := if fresh then [grammarNotice d] else []
      let found := if a.bindings = 0 then [] else [bindingsNotice a.bindings s]
      let again := if strict && !a.faults.isEmpty then [] else a.repeated.map (repeatedNotice s)
      (opening ++ found ++ again, if fresh then d :: used else used)

end Localization.Script
