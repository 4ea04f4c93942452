import Localization.Proofs.Script.Grammar.Statements
import Localization.Proofs.Script.Starts
import Localization.Script.Parse

/-! A whole script is laid apart: two of its sites never begin at one offset. The rules of the
grammar are by induction on how deeply they nest. -/

namespace Localization.Script

open Reader

namespace Grammar

theorem orderly_body {g : Grammar} (hg : g.Orderly) (r : Rule) : (body g r).Orderly := by
  cases r with
  | statement => exact orderly_statementRule hg
  | expression m => exact orderly_expressionRule hg m
  | assignment m => exact orderly_assignmentRule hg m
  | unary => exact orderly_unaryRule hg
  | primary => exact orderly_primaryRule hg
  | pattern => exact orderly_patternRule hg
  | type => exact orderly_typeRule hg
  | element => exact orderly_elementRule hg

theorem orderly_rules (markup : Bool) (fuel depth : Nat) :
    Grammar.Orderly ⟨rules markup fuel depth, markup, fuel⟩ := by
  induction depth with
  | zero => exact fun _ => Keeps.failure
  | succ depth ih => exact fun r => orderly_body ih r

end Grammar

theorem forward_interpreterLine : interpreterLine.Forward := by
  refine forward_get.bind fun c => ?_
  split
  · exact forward_advance _
  · exact .pure ()

theorem forward_markupComment : markupComment.Forward :=
  (forward_markAhead _).bind fun _ => (forward_markAhead _).bind fun _ =>
    (forward_check _).bind fun _ => forward_gap.bind fun _ => forward_get.bind fun _ =>
    forward_advance _

theorem forward_strayToken : strayToken.Forward :=
  orderly_stringLiteral.forward.discard.orElse (forward_word.discard.orElse
    (forward_ahead.bind fun _ => (forward_check _).bind fun _ => forward_skip _))

theorem orderly_statements {g : Grammar} (hg : g.Orderly) : (statements g).Orderly := by
  have hnone : (pure [] : Reader (List Tree)).Orderly := .pure (by simp)
  have hstatement : (statements.listOf1 g).Orderly := (hg .statement).map (by simp)
  exact .after forward_interpreterLine fun _ =>
    .bind (.many (.orElse (.seqRight forward_markupComment hnone)
      (hstatement.orElse (.seqRight forward_strayToken hnone))) _) fun _ => .pure (by simp)

/-- At each offset of a script, at most one of its sites begins. -/
theorem opens_parse_le (dialect : Dialect) (script : List Char) (n : Nat) :
    opens n (parse dialect script) ≤ 1 := by
  unfold parse
  dsimp only
  split
  · rename_i ss d hread
    obtain ⟨-, hopens⟩ :=
      orderly_statements (Grammar.orderly_rules _ _ _) ⟨script, 0⟩ ss d hread
    have hn : opens n ss ≤ 0 + Cursor.passed ⟨script, 0⟩ d n := hopens n
    have hpassed : Cursor.passed ⟨script, 0⟩ d n ≤ 1 := by unfold Cursor.passed; split <;> omega
    simp only [opens_other (k := .other) (by decide) (by decide) (by decide)]
    omega
  · simp

theorem separate_parse (dialect : Dialect) (script : List Char) : (parse dialect script).Separate :=
  Tree.separate_of_opens_le (opens_parse_le dialect script)

end Localization.Script
