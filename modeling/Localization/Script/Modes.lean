import Localization.Script.Extraction

/-! The two ways to extract the messages of a script: one ends with the first fault, the other notes
faults and goes on. Both go through the calls binding by binding, then through the literals, and
catch the faults of calls and those of literals in different places. -/

namespace Localization.Script

/-- What an extraction does with a fault that it catches. -/
inductive Policy where
  /-- It ends with the fault. -/
  | strict
  /-- It notes the fault and goes on. -/
  | lenient

/-- Why an extraction ends without a bundle. -/
inductive Stop where
  | unsupported (e : UnsupportedFile)
  | fault (e : CallError)
  /-- A literal without a message. -/
  | unhandled

/-- What has been extracted so far, in order. -/
structure Gathered where
  entries : List Entry := []
  faults : List Fault := []

/-- What has been extracted with one more message. -/
def Gathered.add (g : Gathered) (t : Tree) (m : Message) : Gathered :=
  { g with entries := g.entries ++ [⟨t.start, m⟩] }

namespace Policy

/-- A fault of a node that is caught. -/
def caught (policy : Policy) (g : Gathered) (t : Tree) (e : CallError) : Except Stop Gathered :=
  match policy with
  | .strict => .error (.fault e)
  | .lenient => .ok { g with faults := g.faults ++ [⟨t.start, e⟩] }

/-- Reads the arguments of a call. All faults are caught. -/
def readCall (policy : Policy) (g : Gathered) (t : Tree) : Except Stop Gathered :=
  match classify t with
  | .ok none => .ok g
  | .ok (some m) => .ok (g.add t m)
  | .error e => policy.caught g t e

/-- Reads the arguments of a call, unless they begin where others did that have been read. -/
def visitCall (policy : Policy) : List Nat × Gathered → Tree → Except Stop (List Nat × Gathered)
  | (seen, g), t =>
    if seen.contains t.start then .ok (seen, g)
    else (policy.readCall g t).map fun g => (t.start :: seen, g)

/-- Reads a literal. Only the faults of its escape sequences are caught. -/
def visitLiteral (policy : Policy) (g : Gathered) (t : Tree) : Except Stop Gathered :=
  match classify t with
  | .ok none => .error .unhandled
  | .ok (some m) => .ok (g.add t m)
  | .error (.escape e) => policy.caught g t (.escape e)
  | .error e => .error (.fault e)

/-- Goes through the calls of a script binding by binding, then through its literals. -/
def visitAll (policy : Policy) (o : Options) (dialect : Dialect) (root : Tree)
    (bindings : List Binding) : Except Stop Gathered := do
  let (_, g) ← bindings.foldlM
    (fun state b => (sitesOf o.vocabulary root b).foldlM policy.visitCall state) ([], {})
  if o.literals && dialect = .markup then
    (literalSites o.vocabulary root).foldlM policy.visitLiteral g
  else return g

end Policy

/-- The bundle of the messages, in the order in which they stand in the script. -/
def Gathered.bundle (g : Gathered) : Bundle := (collect [] ((inOrder g.entries).map (·.message))).1

/-- The bundle of a script and the faults that are noted on the way. -/
def extract (policy : Policy) (o : Options) (s : Source) : Except Stop (Bundle × List Fault) := do
  let dialect ← (dialectOf s.suffix).mapError .unsupported
  if !mentions o.vocabulary.messageNamespace s.text
      || !mentions o.vocabulary.hostNamespace s.text then
    return ([], [])
  let root := parse dialect s.text
  let bindings := Binding.all o.vocabulary root
  if bindings.isEmpty then return ([], [])
  let g ← policy.visitAll o dialect root bindings
  return (g.bundle, g.faults)

end Localization.Script
