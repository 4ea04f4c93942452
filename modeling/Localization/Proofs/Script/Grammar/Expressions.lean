import Localization.Proofs.Script.Grammar.Members
import Localization.Script.Grammar.Expressions

/-! Markup and expressions are laid apart, given that the rules of the grammar are. -/

namespace Localization.Script.Grammar

open Reader

variable {g : Grammar}

/-! Markup. -/

theorem forward_markupName : markupName.Forward :=
  forward_here.bind fun _ => forward_get.bind fun _ => (forward_check _).bind fun _ =>
    (forward_advance _).bind fun _ => .pure _

theorem forward_tagName : (tagName g).Forward :=
  forward_markupName.discard.bind fun _ =>
    ((((forward_mark _).orElse (forward_mark _)).seqRight forward_markupName).many _).discard

theorem orderly_markupExpression (hg : g.Orderly) : g.markupExpression.Orderly :=
  .after forward_here fun start => .after (forward_mark _) fun _ =>
    .bind (.listOf ((orderly_spread hg start).orElse (hg _))) fun _ => .after (forward_mark _)
      fun _ => .pure (by simp)

theorem orderly_markupAttribute (hg : g.Orderly) : (markupAttribute g).Orderly := by
  have hvalue : Reader.Orderly (do
      mark "="
      markupString <|> g.markupExpression <|> g.rule .element) :=
    .after (forward_mark _) fun _ =>
      orderly_markupString.orElse ((orderly_markupExpression hg).orElse (hg _))
  refine .after forward_here fun start => .after forward_get fun c => ?_
  split
  · exact orderly_markupExpression hg
  · exact .after forward_markupName fun _ =>
      .after ((forward_mark _).seqRight forward_markupName).optionally fun _ =>
      .bind (.listOf hvalue) fun _ => .pure (by intro n; split <;> simp)

theorem orderly_content (hg : g.Orderly) : (content g).Orderly := by
  refine .bind (.many (.after forward_get fun c => ?_) _) fun _ => .pure (by simp)
  split
  · exact .after (forward_check _) fun _ => .bind (hg _) fun _ => .pure (by simp)
  · exact .bind (orderly_markupExpression hg) fun _ => .pure (by simp)
  · exact .after forward_get fun _ => .after (forward_advance _) fun _ => .pure (by simp)

theorem orderly_elementRule (hg : g.Orderly) : g.elementRule.Orderly := by
  have htypes (start : Nat) : Reader.Orderly (do
      mark "<"
      let ts ← g.commaList g.type
      mark ">"
      return Tree.node .other start ts) :=
    .after (forward_mark _) fun _ => .bind (.sepBy (hg _) _ _) fun _ => .after (forward_mark _)
      fun _ => .pure (by simp)
  refine .after forward_here fun start => .after (forward_mark _) fun _ =>
    .after forward_tagName.optionally.discard fun _ => .bind (.listOf (htypes start)) fun _ =>
    .bind (.many (orderly_markupAttribute hg) _) fun _ => .orElse ?closed ?opened
  case closed =>
    exact .after (forward_mark _) fun _ => .after (forward_mark _) fun _ => .pure (by simp)
  case opened =>
    exact .after (forward_mark _) fun _ => .bind (orderly_content hg) fun _ =>
      .after (forward_mark _) fun _ => .after (forward_mark _) fun _ =>
      .after forward_tagName.optionally.discard fun _ => .after (forward_mark _) fun _ =>
      .pure (by simp; omega)

/-! Operands. -/

theorem orderly_templateLiteral (hg : g.Orderly) : g.templateLiteral.Orderly := by
  refine .site (by decide) fun start => .bind (.many (.after forward_get fun c => ?_) _) fun _ => ?_
  · split
    · exact .after (forward_advance _) fun _ => .bind (hg _) fun _ => .after (forward_mark _) fun _ =>
        .after (forward_since _) fun _ => .pure (by simp)
    · exact .after (forward_check _) fun _ => .after (forward_advance _) fun _ => .pure (by simp)
  · exact .after forward_get fun _ => .after (forward_check _) fun _ =>
      .after (forward_advance _) fun _ => .pure (by simp)

theorem templateLiteral_isSite : g.templateLiteral.Gives fun t => t.kind.isSite = true :=
  .bind fun _ => .bind fun _ => .bind fun _ => .bind fun _ => .bind fun _ => .bind fun _ => .pure rfl

theorem orderly_arrayLiteral (hg : g.Orderly) : (arrayLiteral g).Orderly := by
  refine .after forward_here fun _ => .after (forward_mark _) fun _ =>
    .bind (.many (.after forward_ahead fun cs => ?_) _) fun _ => .after (forward_mark _) fun _ =>
    .pure (by simp)
  split
  · exact .after (forward_skip _) fun _ => .pure (by simp)
  · exact .after forward_here fun start => .bind ((orderly_spread hg start).orElse (hg _)) fun _ =>
      .after ((forward_mark _).orElse ((forward_markAhead _).bind fun _ => forward_check _)) fun _ =>
      .pure (by simp)

theorem orderly_newExpression (hg : g.Orderly) {chain : Tree → Reader Tree}
    (hchain : ∀ t, (chain t).Keeps fun n => opens n t) : (newExpression g chain).Orderly := by
  refine .after forward_here fun _ => .after (forward_keyword _) fun _ => .orElse ?target ?constructed
  case target =>
    exact .after (forward_mark _) fun _ => .after forward_word.discard fun _ => .pure (by simp)
  case constructed =>
    exact .bind (hg _) fun t => .through (.mono (hchain t) (by simp)) fun _ =>
      .bind (.listOf (orderly_expressionTypeArguments hg)) fun _ =>
      .bind (.listOf (orderly_argumentList hg)) fun _ => .pure (by simp; omega)

theorem orderly_memberName : memberName.Orderly :=
  .orElse (.after forward_word fun _ => .pure (by simp))
    (.after (forward_mark _) fun _ => .after forward_word fun _ => .pure (by simp))

theorem keeps_indexed (hg : g.Orderly) (t : Tree) : (indexed g t).Keeps fun n => opens n t :=
  .after (forward_mark _) fun _ => .bind (hg _) fun _ => .after (forward_mark _) fun _ =>
    .pure (by simp)

theorem keeps_called (hg : g.Orderly) (t : Tree) : (called g t).Keeps fun n => opens n t :=
  .bindGiven (orderly_argumentList hg) argumentList_isSite fun _ hsite => .pure (by simp [hsite])

theorem keeps_calledWith (hg : g.Orderly) (t types : Tree) :
    (calledWith g t types).Keeps fun n => opens n t + opens n types :=
  .bindGiven (orderly_argumentList hg) argumentList_isSite fun _ hsite =>
    .pure (by simp [hsite]; omega)

/-- Whatever follows an operand, the operand is kept once. -/
theorem keeps_suffixed (hg : g.Orderly) (calls : Bool) (fuel : Nat) (t : Tree) :
    (suffixed g calls fuel t).Keeps fun n => opens n t := by
  induction fuel generalizing t with
  | zero => exact .pure (by simp)
  | succ fuel ih =>
    have hmember : Keeps (fun n => opens n t) (do
        let p ← memberName
        return Tree.node .member t.start [t, p]) :=
      .bind orderly_memberName fun _ => .pure (by simp)
    refine .after forward_newlineAhead fun broken => .after forward_ahead fun cs => ?_
    split
    · split
      · exact .pure (by simp)
      · exact .after (forward_skip _) fun _ => .through ((keeps_indexed hg t).orElse
          ((keeps_called hg t).orElse (.orElse (.bind (orderly_typeArguments hg) fun types =>
            keeps_calledWith hg t types) hmember))) fun next => ih next
    · exact .after (forward_mark _) fun _ => .bind orderly_memberName fun _ => (ih _).mono (by simp)
    · exact .through (keeps_indexed hg t) fun next => ih next
    · split
      · exact .through (keeps_called hg t) fun next => ih next
      · exact .pure (by simp)
    · exact .bindGiven (orderly_templateLiteral hg) templateLiteral_isSite fun _ hsite =>
        (ih _).mono (by simp [hsite])
    · split
      · exact .pure (by simp)
      · exact .after (forward_mark _) fun _ => (ih _).mono (by simp)
    · refine .orElse (.after (forward_check _) fun _ =>
        .bind (orderly_expressionTypeArguments hg) fun types => .through
          ((keeps_calledWith hg t types).orElse (.orElse ?tagged ?plain)) fun next => ih next)
        (.pure (by simp))
      case tagged =>
        exact .after (forward_markAhead _) fun _ => .after (forward_check _) fun _ =>
          .bind (orderly_templateLiteral hg) fun _ => .pure (by simp; omega)
      case plain =>
        exact .after forward_ahead fun _ => .after forward_newlineAhead fun _ =>
          .after (forward_check _) fun _ => .pure (by simp)
    · exact .pure (by simp)

theorem orderly_wordOperand (hg : g.Orderly) : (wordOperand g).Orderly := by
  have hchain (t : Tree) := keeps_suffixed hg false g.fuel t
  have himport : Forward ((do mark "."; discard word) <|> (do check (← markAhead "("))) :=
    ((forward_mark _).bind fun _ => forward_word.discard).orElse
      ((forward_markAhead _).bind fun _ => forward_check _)
  refine .after forward_here fun _ => .after forward_wordAhead fun w => ?_
  split
  · exact orderly_functionExpression hg
  · exact orderly_classExpression hg
  · exact orderly_newExpression hg hchain
  · exact .after (forward_keyword _) fun _ => .after himport fun _ => .pure (by simp)
  · exact (orderly_functionExpression hg).orElse orderly_identifier
  all_goals first
    | exact orderly_identifier
    | exact .after forward_word.discard fun _ => .pure (by simp)

theorem orderly_primaryRule (hg : g.Orderly) : g.primaryRule.Orderly := by
  refine .after forward_here fun _ => .after forward_get fun c => ?_
  split
  · exact .after (forward_mark _) fun _ => .bind (hg _) fun _ => .after (forward_mark _) fun _ =>
      .pure (by simp)
  · exact orderly_arrayLiteral hg
  · exact orderly_objectLiteral hg
  · exact orderly_templateLiteral hg
  · exact orderly_regularExpression
  · exact orderly_classExpression hg
  · exact .after (forward_check _) fun _ => hg _
  · exact .after (forward_mark _) fun _ => .after forward_word fun _ => .pure (by simp)
  · split
    · exact orderly_stringLiteral
    · split
      · exact orderly_number
      · exact orderly_wordOperand hg
  · exact .failure

/-! Operators. -/

theorem orderly_under (hg : g.Orderly) (start : Nat) {head : Reader Unit} (hhead : head.Forward) :
    (under g start head).Orderly :=
  .after hhead fun _ => .bind (hg _) fun _ => .pure (by simp)

theorem orderly_operand (hg : g.Orderly) (start : Nat) : (operand g start).Orderly :=
  .bind (orderly_primaryRule hg) fun t =>
    .through (.mono (keeps_suffixed hg true g.fuel t) (by simp)) fun _ => .orElse
      (.after forward_newlineAhead fun _ => .after (forward_check _) fun _ =>
        .after ((forward_mark _).orElse (forward_mark _)) fun _ => .pure (by simp))
      (.pure (by simp))

theorem orderly_unaryRule (hg : g.Orderly) : g.unaryRule.Orderly := by
  refine .after forward_here fun start => .after forward_get fun c => ?_
  split
  case h_7 =>
    split
    · exact orderly_operand hg start
    · exact .bind (orderly_typeArguments hg) fun _ => .bind (hg _) fun _ => .pure (by simp)
  case h_8 =>
    have hwords : Forward (keyword "typeof" <|> keyword "void" <|> keyword "delete") :=
      (forward_keyword _).orElse ((forward_keyword _).orElse (forward_keyword _))
    have hawait : Forward (do
        keyword "await"
        check (beginsOperand (← ahead))) :=
      (forward_keyword _).bind fun _ => forward_ahead.bind fun _ => forward_check _
    exact (orderly_under hg start hwords).orElse
      ((orderly_under hg start hawait).orElse (orderly_operand hg start))
  all_goals exact orderly_under hg start (forward_mark _)

theorem orderly_binaryTail (hg : g.Orderly) (m : Mode) : (binaryTail g m).Orderly := by
  refine .after forward_ahead fun cs => ?_
  split
  · exact .after (forward_skip _) fun _ => hg _
  · exact .orElse
      (.after ((forward_keywordHere _).orElse (forward_keywordHere _)) fun _ => hg _)
      (.after ((forward_keyword _).orElse
        ((forward_check _).bind fun _ => forward_keyword _)) fun _ => hg _)

theorem orderly_binary (hg : g.Orderly) (m : Mode) : (binary g m).Orderly :=
  .bind (hg _) fun _ => .bind (.many (orderly_binaryTail hg m) _) fun _ => .pure fun n => by
    split <;> simp

theorem forward_questionMark : questionMark.Forward := by
  refine forward_ahead.bind fun cs => ?_
  split
  · exact (forward_check _).bind fun _ => forward_mark _
  · exact Forward.failure.bind fun _ => forward_mark _
  · exact forward_mark _

theorem keeps_branches (hg : g.Orderly) (m : Mode) (plain : Bool) (test : Tree) :
    (branches g m plain test).Keeps fun n => opens n test :=
  .after forward_questionMark fun _ => .bind (hg _) fun _ => .after (forward_mark _) fun _ =>
    .bind (hg _) fun _ => .pure (by simp; omega)

theorem orderly_conditional (hg : g.Orderly) (m : Mode) : (conditional g m).Orderly :=
  .through (orderly_binary hg m) fun test => (keeps_branches hg m _ test).orElse
    ((keeps_branches hg m true test).orElse (.pure (by simp)))

theorem orderly_arrowBody (hg : g.Orderly) (m : Mode) : (arrowBody g m).Orderly := by
  refine .after (forward_mark _) fun _ => .after forward_ahead fun cs => ?_
  split
  · exact orderly_block hg
  · exact hg _

theorem orderly_arrowResult (hg : g.Orderly) (m : Mode) : (arrowResult g m).Orderly := by
  unfold arrowResult
  split
  · exact .pure (by simp)
  · exact orderly_annotated hg

theorem orderly_arrowOfParameters (hg : g.Orderly) (m : Mode) (start : Nat) :
    (arrowOfParameters g m start).Orderly :=
  .bind (.listOf (orderly_typeParameters hg)) fun _ => .bind (orderly_parameters hg) fun _ =>
    .bind (orderly_arrowResult hg m) fun _ => .after forward_newlineAhead fun _ =>
    .after (forward_check _) fun _ => .bind (orderly_arrowBody hg m) fun _ => .pure (by simp; omega)

theorem orderly_arrowOfName (hg : g.Orderly) (m : Mode) (start : Nat) :
    (arrowOfName g m start).Orderly :=
  .bind orderly_identifier fun _ => .after forward_newlineAhead fun _ => .after (forward_check _)
    fun _ => .bind (orderly_arrowBody hg m) fun _ => .pure (by simp)

theorem orderly_arrowFunction (hg : g.Orderly) (m : Mode) : (arrowFunction g m).Orderly := by
  refine .after forward_here fun start => .after forward_get fun c => ?_
  have hparameters := orderly_arrowOfParameters hg m start
  have hname := orderly_arrowOfName hg m start
  split
  · exact hparameters
  · exact .after (forward_check _) fun _ => hparameters
  · exact .after (forward_check _) fun _ => .orElse
      (.after (forward_keyword _) fun _ => .after forward_newlineAhead fun _ =>
        .after (forward_check _) fun _ => hparameters.orElse hname) hname
  · exact .failure

theorem orderly_yieldExpression (hg : g.Orderly) (m : Mode) : (yieldExpression g m).Orderly := by
  have hmark : Forward (mark "*" <|> (do check (beginsOperand (← ahead)))) :=
    (forward_mark _).orElse (forward_ahead.bind fun _ => forward_check _)
  have hvalue : Reader.Orderly (do
      check !(← newlineAhead)
      mark "*" <|> (do check (beginsOperand (← ahead)))
      g.rule (.assignment m)) :=
    .after forward_newlineAhead fun _ => .after (forward_check _) fun _ => .after hmark fun _ => hg _
  exact .after forward_here fun _ => .after (forward_keyword _) fun _ => .bind (.listOf hvalue) fun _ =>
    .after (forward_markAhead _) fun _ => .after (forward_markAhead _) fun _ =>
    .after (forward_check _) fun _ => .pure (by simp)

theorem orderly_assignmentRule (hg : g.Orderly) (m : Mode) : (g.assignmentRule m).Orderly := by
  refine (orderly_arrowFunction hg m).orElse ((orderly_yieldExpression hg m).orElse
    (.bind (orderly_conditional hg m) fun left => .after forward_ahead fun cs => ?_))
  split
  · split
    · exact .pure (by simp)
    · exact .after (forward_mark _) fun _ => .bind (hg _) fun _ => .pure (by simp)
  · split
    · exact .after (forward_skip _) fun _ => .bind (hg _) fun _ => .pure (by simp)
    · exact .pure (by simp)

theorem orderly_expressionRule (hg : g.Orderly) (m : Mode) : (g.expressionRule m).Orderly :=
  .bind (hg _) fun _ => .bind (.many (.seqRight (forward_mark _) (hg _)) _) fun _ => .pure fun n => by
    split <;> simp

end Localization.Script.Grammar
