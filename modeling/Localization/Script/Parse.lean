import Localization.Script.Grammar.Statements

/-! The whole grammar of scripts. Its rules call one another through `rules`, which ends because
every rule called uses up one unit of a bound that the length of the script sets. -/

namespace Localization.Script

/-- The two dialects: scripts in which an angle bracket before an operand is a type assertion, and
scripts in which it opens markup. -/
inductive Dialect where
  | typed
  | markup
  deriving DecidableEq, Repr

namespace Grammar

/-- What each rule reads, given the rules that it refers to. -/
def body (g : Grammar) : Rule → Reader Tree
  | .statement => g.statementRule
  | .expression m => g.expressionRule m
  | .assignment m => g.assignmentRule m
  | .unary => g.unaryRule
  | .primary => g.primaryRule
  | .pattern => g.patternRule
  | .type => g.typeRule
  | .element => g.elementRule

/-- The readers of all rules, for nesting up to `depth`. -/
def rules (markup : Bool) (fuel : Nat) : (depth : Nat) → Rule → Reader Tree
  | 0, _ => failure
  | depth + 1, r => body ⟨rules markup fuel depth, markup, fuel⟩ r

end Grammar

open Reader

/-- The line at the start of a script that names its interpreter. -/
def interpreterLine : Reader Unit := do
  match (← get).rest with
  | '#' :: '!' :: cs => advance (2 + (cs.takeWhile (!endsLine ·)).length)
  | _ => pure ()

/-- Passes over a comment in the style of markup, which takes its line. -/
def markupComment : Reader Unit := do
  check ((← markAhead "<!--") || (← markAhead "-->"))
  gap
  advance ((← get).rest.takeWhile (!endsLine ·)).length

/-- A token that no statement begins with; it is passed over. -/
def strayToken : Reader Unit :=
  discard stringLiteral <|> discard word <|> do
    check !(← ahead).isEmpty
    skip 1

/-- The statements of a script. Where none begins, a token is passed over. -/
def statements (g : Grammar) : Reader (List Tree) := do
  interpreterLine
  let ss ← Reader.many (markupComment *> pure [] <|> listOf1 <|> strayToken *> pure []) g.fuel
  return ss.flatten
where
  listOf1 : Reader (List Tree) := (fun t => [t]) <$> g.statement

/-- The tree of a script. What is no statement is left out, token by token. -/
def parse (dialect : Dialect) (script : List Char) : Tree :=
  let fuel := script.length + 1
  let g : Grammar := ⟨Grammar.rules (dialect == .markup) fuel (16 * fuel), dialect == .markup, fuel⟩
  match (statements g).run ⟨script, 0⟩ with
  | some (ss, _) => .node .other 0 ss
  | none => .node .other 0 []

end Localization.Script
