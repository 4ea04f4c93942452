import Localization.Proofs.Script.Grammar.Types
import Localization.Script.Grammar.Members

/-! Patterns, functions, and the members of objects and classes are laid apart, given that the rules
of the grammar are. -/

namespace Localization.Script.Grammar

open Reader

variable {g : Grammar}

/-! Patterns. -/

theorem orderly_identifier : identifier.Orderly :=
  .after forward_word fun _ => .after (forward_check _) fun _ => .pure (by simp)

theorem orderly_patternWithDefault (hg : g.Orderly) : g.patternWithDefault.Orderly :=
  .bind (hg _) fun _ => .orElse
    (.after (forward_mark _) fun _ => .bind (hg _) fun _ => .pure (by simp)) (.pure (by simp))

theorem orderly_restPattern (hg : g.Orderly) (start : Nat) : (g.restPattern start).Orderly :=
  .after (forward_mark _) fun _ => .bind (hg _) fun _ => .pure (by simp)

theorem orderly_patternMember (hg : g.Orderly) : g.patternMember.Orderly :=
  .after forward_here fun start => (orderly_restPattern hg start).orElse (.orElse
    (.bind (orderly_propertyName hg) fun _ => .after (forward_mark _) fun _ =>
      .bind (orderly_patternWithDefault hg) fun _ => .pure (by simp))
    (.after forward_word fun _ => .orElse
      (.after (forward_mark _) fun _ => .bind (hg _) fun _ => .pure (by simp)) (.pure (by simp))))

theorem orderly_patternElement (hg : g.Orderly) : g.patternElement.Orderly := by
  refine .after forward_ahead fun next => ?_
  split
  · exact .after (forward_skip _) fun _ => .pure (by simp)
  · exact .after forward_here fun start =>
      .bind ((orderly_restPattern hg start).orElse (orderly_patternWithDefault hg)) fun _ =>
      .after ((forward_mark _).orElse ((forward_markAhead _).bind fun _ => forward_check _)) fun _ =>
      .pure (by simp)

theorem orderly_patternRule (hg : g.Orderly) : g.patternRule.Orderly := by
  refine .after forward_here fun start => .after forward_get fun c => ?_
  split
  · exact .after (forward_mark _) fun _ => .bind (.sepBy (orderly_patternMember hg) _ _) fun _ =>
      .after (forward_mark _) fun _ => .pure (by simp)
  · exact .after (forward_mark _) fun _ => .bind (.many (orderly_patternElement hg) _) fun _ =>
      .after (forward_mark _) fun _ => .pure (by simp)
  · exact .orElse (.after (forward_keyword _) fun _ => .pure (by simp)) orderly_identifier

/-! Functions and objects. -/

theorem orderly_block (hg : g.Orderly) : g.block.Orderly :=
  .after forward_here fun _ => .after (forward_mark _) fun _ => .bind (.many (hg _) _) fun _ =>
    .after (forward_mark _) fun _ => .pure (by simp)

theorem orderly_functionTail (hg : g.Orderly) (start : Nat) : (g.functionTail start).Orderly := by
  refine .after (forward_mark _).optionally.discard fun _ =>
    .after forward_word.optionally.discard fun _ => .bind (orderly_signature hg) fun s =>
    .bind (.listOf (orderly_block hg)) fun body => ?_
  dsimp only
  split
  · exact .after forward_semicolon fun _ => .pure (by simp)
  · exact .pure (by simp)

theorem orderly_functionExpression (hg : g.Orderly) : g.functionExpression.Orderly := by
  have hasync : Forward (keyword "async" *> (do check !(← newlineAhead))) :=
    (forward_keyword _).seqRight (forward_newlineAhead.bind fun _ => forward_check _)
  exact .after forward_here fun start => .after hasync.optionally.discard fun _ =>
    .after (forward_keyword _) fun _ => orderly_functionTail hg start

theorem orderly_objectMember (hg : g.Orderly) : g.objectMember.Orderly := by
  refine .after forward_here fun start => (orderly_spread hg start).orElse
    (.orElse ?method (.orElse ?pair ?shorthand))
  case method =>
    exact .after ((forward_modifierOf _).many _).discard fun _ =>
      .after (forward_mark _).optionally.discard fun _ => .bind (orderly_propertyName hg) fun _ =>
      .after (forward_mark _).optionally.discard fun _ => .bind (orderly_signature hg) fun _ =>
      .bind (orderly_block hg) fun _ => .pure (by simp; omega)
  case pair =>
    exact .bind (orderly_propertyName hg) fun _ => .after (forward_mark _) fun _ =>
      .bind (hg _) fun _ => .pure (by simp)
  case shorthand =>
    exact .after forward_word fun _ => .orElse
      (.after (forward_mark _) fun _ => .bind (hg _) fun _ => .pure (by simp)) (.pure (by simp))

theorem orderly_objectLiteral (hg : g.Orderly) : g.objectLiteral.Orderly :=
  .after forward_here fun _ => .after (forward_mark _) fun _ =>
    .bind (.sepBy (orderly_objectMember hg) _ _) fun _ => .after (forward_mark _) fun _ =>
    .pure (by simp)

/-! Classes. -/

/-- Members of a name open what the names open. -/
theorem opens_members (name : Tree) (members : List Tree) (n : Nat) :
    opens n (members.foldl (fun t p => Tree.node .member t.start [t, p]) name) =
      opens n name + opens n members := by
  induction members generalizing name with
  | nil => simp
  | cons p members ih =>
    rw [List.foldl_cons, ih]
    simp
    omega

theorem orderly_decorator (hg : g.Orderly) : g.decorator.Orderly := by
  refine .after forward_here fun start => .after (forward_mark _) fun _ =>
    .after forward_ahead fun cs => ?_
  split
  · exact .after (forward_mark _) fun _ => .bind (hg _) fun _ => .after (forward_mark _) fun _ =>
      .pure (by simp)
  · refine .bind orderly_identifier fun name => .bind (.many ?_ _) fun members =>
      .bind (.listOf (orderly_typeArguments hg)) fun types => .orElse
      (.bindGiven (orderly_argumentList hg) argumentList_isSite fun args hargs => .pure fun n => ?_)
      (.pure fun n => ?_)
    · exact .after (forward_mark _) fun _ => .after forward_word fun _ => .pure (by simp)
    · have hcallee := opens_members name members n
      simp [hargs]
      omega
    · have hcallee := opens_members name members n
      simp
      omega

theorem orderly_classMember (hg : g.Orderly) : g.classMember.Orderly := by
  have hmark : Forward (mark "?" <|> mark "!") := (forward_mark _).orElse (forward_mark _)
  have hindexed : (classMember.indexed g).Orderly :=
    .after (forward_mark _) fun _ => .after forward_word.discard fun _ => .after (forward_mark _)
      fun _ => .bind (hg _) fun _ => .after (forward_mark _) fun _ =>
      .bind (orderly_annotated hg) fun _ => .after forward_semicolon fun _ => .pure (by simp)
  have hmethod : (classMember.method g).Orderly := by
    refine .bind (orderly_propertyName hg) fun _ => .after hmark.optionally.discard fun _ =>
      .bind (orderly_signature hg) fun _ => .bind (.listOf (orderly_block hg)) fun body => ?_
    dsimp only
    split
    · exact .after forward_semicolon fun _ => .pure (by simp; omega)
    · exact .pure (by simp; omega)
  have hfield : (classMember.field g).Orderly :=
    .bind (orderly_propertyName hg) fun _ => .after hmark.optionally.discard fun _ =>
      .bind (orderly_annotated hg) fun _ =>
      .bind (.listOf (.seqRight (forward_mark _) (hg _))) fun _ =>
      .after forward_semicolon fun _ => .pure (by simp; omega)
  refine .after forward_here fun start => .orElse (.after (forward_mark _) fun _ => .pure (by simp))
    (.orElse (.after (forward_keyword _) fun _ => orderly_block hg) ?_)
  exact .bind (.many (orderly_decorator hg) _) fun _ =>
    .after ((forward_modifierOf _).many _).discard fun _ =>
    .after (forward_mark _).optionally.discard fun _ =>
    .bind (hindexed.orElse (hmethod.orElse hfield)) fun _ => .pure (by simp)

theorem orderly_classExpression (hg : g.Orderly) : g.classExpression.Orderly := by
  have hname : Forward (do
      check !(["extends".toList, "implements".toList].contains (← wordAhead))
      discard word) :=
    forward_wordAhead.bind fun _ => (forward_check _).bind fun _ => forward_word.discard
  have hbase : Reader.Orderly (do
      keyword "extends"
      let e ← g.rule .unary
      let types ← listOf g.typeArguments
      return Tree.node .other e.start (e :: types)) :=
    .after (forward_keyword _) fun _ => .bind (hg _) fun _ =>
      .bind (.listOf (orderly_typeArguments hg)) fun _ => .pure (by simp)
  have hcontracts (start : Nat) : Reader.Orderly (do
      keyword "implements"
      let ts ← g.commaList g.type
      return Tree.node .other start ts) :=
    .after (forward_keyword _) fun _ => .bind (.sepBy (hg _) _ _) fun _ => .pure (by simp)
  exact .after forward_here fun start => .bind (.many (orderly_decorator hg) _) fun _ =>
    .after (forward_modifierOf _).optionally.discard fun _ => .after (forward_keyword _) fun _ =>
    .after hname.optionally.discard fun _ => .bind (.listOf (orderly_typeParameters hg)) fun _ =>
    .bind (.listOf hbase) fun _ => .bind (.listOf (hcontracts start)) fun _ =>
    .after (forward_mark _) fun _ => .bind (.many (orderly_classMember hg) _) fun _ =>
    .after (forward_mark _) fun _ => .pure (by simp; omega)

end Localization.Script.Grammar
