import Localization.Proofs.Script.Grammar.Basic
import Localization.Script.Grammar.Types

/-! Types and signatures are laid apart, given that the rules of the grammar are. -/

namespace Localization.Script.Grammar

open Reader

variable {g : Grammar}

@[simp] theorem opens_parts (start : Nat) (ts : List Tree) (n : Nat) :
    opens n (parts start ts) = opens n ts := by
  simp [parts]

theorem orderly_typeArguments (hg : g.Orderly) : g.typeArguments.Orderly :=
  .after forward_here fun _ => .after (forward_mark _) fun _ => .bind (.sepBy (hg _) _ _) fun _ =>
    .after (forward_mark _) fun _ => .pure (by simp)

theorem orderly_expressionTypeArguments (hg : g.Orderly) : g.expressionTypeArguments.Orderly := by
  refine .bind (orderly_typeArguments hg) fun t => .after forward_get fun c => ?_
  split
  · exact .after (forward_check _) fun _ => .pure (by simp)
  · exact .pure (by simp)

theorem orderly_typeParameters (hg : g.Orderly) : g.typeParameters.Orderly := by
  refine .after forward_here fun start => .after (forward_mark _) fun _ =>
    .bind (.sepBy ?_ _ _) fun _ => .after (forward_mark _) fun _ => .pure (by simp)
  exact .after (((forward_modifierOf _).many _).discard) fun _ => .after forward_word.discard fun _ =>
    .bind (.listOf (.seqRight (forward_keyword _) (hg _))) fun _ =>
    .bind (.listOf (.seqRight (forward_mark _) (hg _))) fun _ => .pure (by simp)

theorem orderly_parameter (hg : g.Orderly) : g.parameter.Orderly := by
  refine .after forward_here fun start =>
    .bind (.many (.after (forward_mark _) fun _ => hg _) _) fun decorators => ?_
  exact .after ((forward_modifierOf _).many _).discard fun _ =>
    .after (forward_mark _).optionally.discard fun _ => .bind (hg _) fun _ =>
    .after (forward_mark _).optionally.discard fun _ => .bind (orderly_annotated hg) fun _ =>
    .bind (.listOf (.seqRight (forward_mark _) (hg _))) fun _ => .pure (by simp; omega)

theorem orderly_parameters (hg : g.Orderly) : g.parameters.Orderly :=
  .after forward_here fun _ => .after (forward_mark _) fun _ =>
    .bind (.sepBy (orderly_parameter hg) _ _) fun _ => .after (forward_mark _) fun _ =>
    .pure (by simp)

theorem orderly_signature (hg : g.Orderly) : g.signature.Orderly :=
  .bind (.listOf (orderly_typeParameters hg)) fun _ => .bind (orderly_parameters hg) fun _ =>
    .bind (orderly_annotated hg) fun _ => .pure (by simp; omega)

theorem orderly_functionType (hg : g.Orderly) : g.functionType.Orderly :=
  .after forward_here fun _ =>
    .after ((forward_modifierOf _).seqRight (.pure ())).optionally.discard fun _ =>
    .after (forward_keyword _).optionally.discard fun _ =>
    .bind (.listOf (orderly_typeParameters hg)) fun _ => .bind (orderly_parameters hg) fun _ =>
    .after (forward_mark _) fun _ => .bind (hg _) fun _ => .pure (by simp; omega)

theorem orderly_indexKey (hg : g.Orderly) : g.indexKey.Orderly :=
  .after (forward_mark _) fun _ => .after forward_word.discard fun _ =>
    .after ((forward_mark _).orElse (forward_keyword _)) fun _ => .bind (hg _) fun _ =>
    .bind (.listOf (.seqRight (forward_keyword _) (hg _))) fun _ => .after (forward_mark _) fun _ =>
    .pure (by simp)

theorem orderly_typeMember (hg : g.Orderly) : g.typeMember.Orderly := by
  have hsign : Forward (mark "+" <|> mark "-") := (forward_mark _).orElse (forward_mark _)
  have hindexed : (typeMember.indexed g).Orderly :=
    .bind (orderly_indexKey hg) fun _ =>
      .after (hsign.seqRight (forward_mark _)).optionally.discard fun _ =>
      .after (forward_mark _).optionally.discard fun _ => .bind (orderly_annotated hg) fun _ =>
      .pure (by simp)
  have hconstructor : Reader.Orderly (do
      discard (optionally (keyword "new"))
      g.signature) :=
    .after (forward_keyword _).optionally.discard fun _ => orderly_signature hg
  have hnamed : (typeMember.named g).Orderly :=
    .bind (orderly_propertyName hg) fun _ => .after (forward_mark _).optionally.discard fun _ =>
      .bind ((orderly_signature hg).orElse (orderly_annotated hg)) fun _ => .pure (by simp)
  exact .after forward_here fun _ =>
    .after (hsign.seqRight (forward_keyword _)).optionally.discard fun _ =>
    .after ((forward_modifierOf _).many _).discard fun _ =>
    .bind (hindexed.orElse (hconstructor.orElse hnamed)) fun _ =>
    .after ((forward_mark _).orElse ((forward_mark _).orElse forward_semicolon)) fun _ =>
    .pure (by simp)

theorem orderly_objectType (hg : g.Orderly) : g.objectType.Orderly :=
  .after forward_here fun _ => .after (forward_mark _) fun _ =>
    .bind (.many (orderly_typeMember hg) _) fun _ => .after (forward_mark _) fun _ =>
    .pure (by simp)

theorem orderly_tupleElement (hg : g.Orderly) : g.tupleElement.Orderly := by
  have hlabeled : Reader.Orderly (do
      discard word
      discard (optionally (mark "?"))
      mark ":"
      g.type) :=
    .after forward_word.discard fun _ => .after (forward_mark _).optionally.discard fun _ =>
      .after (forward_mark _) fun _ => hg _
  exact .after forward_here fun _ => .after (forward_mark _).optionally.discard fun _ =>
    .bind (hlabeled.orElse (hg _)) fun _ => .after (forward_mark _).optionally.discard fun _ =>
    .pure (by simp)

theorem orderly_templateType (hg : g.Orderly) : g.templateType.Orderly := by
  refine .after forward_here fun _ => .after (forward_mark _) fun _ => .bind (.many ?_ _) fun _ => ?_
  · refine .after forward_get fun c => ?_
    split
    · exact .after (forward_advance _) fun _ => .bind (hg _) fun _ => .after (forward_mark _) fun _ =>
        .pure (by simp)
    · exact .after (forward_advance _) fun _ => .pure (by simp)
    · exact .after (forward_check _) fun _ => .after (forward_advance _) fun _ => .pure (by simp)
    · exact .failure
  · exact .after forward_get fun _ => .after (forward_check _) fun _ =>
      .after (forward_advance _) fun _ => .pure (by simp)

theorem orderly_typeReference (hg : g.Orderly) : g.typeReference.Orderly := by
  have hmember : Forward (mark "." *> (discard (optionally (mark "#")) *> word)) :=
    (forward_mark _).seqRight ((forward_mark _).optionally.discard.seqRight forward_word)
  exact .after forward_word fun _ => .after (hmember.many _).discard fun _ =>
    .bind (.listOf (orderly_typeArguments hg)) fun _ => .pure (by simp)

theorem orderly_primaryType (hg : g.Orderly) : g.primaryType.Orderly := by
  have himport : (primaryType.importType g).Orderly :=
    .after forward_here fun _ => .after (forward_keyword _) fun _ => .after (forward_mark _) fun _ =>
      .bind (.sepBy (hg _) _ _) fun _ => .after (forward_mark _) fun _ =>
      .after (((forward_mark _).seqRight forward_word).many _).discard fun _ =>
      .bind (.listOf (orderly_typeArguments hg)) fun _ => .pure (by simp)
  refine .after forward_here fun start => .after forward_get fun c => ?_
  split
  · exact .after (forward_mark _) fun _ => .bind (hg _) fun _ => .after (forward_mark _) fun _ =>
      .pure (by simp)
  · exact orderly_objectType hg
  · exact .after (forward_mark _) fun _ => .bind (.sepBy (orderly_tupleElement hg) _ _) fun _ =>
      .after (forward_mark _) fun _ => .pure (by simp)
  · exact orderly_templateType hg
  · exact .after (forward_mark _) fun _ => orderly_number
  · split
    · exact orderly_stringLiteral
    · split
      · exact orderly_number
      · have hnamed := himport.orElse (orderly_typeReference hg)
        exact .orElse (.after (forward_keyword _) fun _ => hnamed) hnamed
  · exact .failure

theorem orderly_arrayType (hg : g.Orderly) : g.arrayType.Orderly := by
  refine .bind (orderly_primaryType hg) fun t => .bind (.many ?_ _) fun more => ?_
  · exact .after forward_newlineAhead fun _ => .after (forward_check _) fun _ =>
      .after (forward_mark _) fun _ => .bind (.listOf (hg _)) fun _ => .after (forward_mark _) fun _ =>
      .pure (by simp)
  · refine .pure fun n => ?_
    split <;> simp

theorem orderly_operatorType (hg : g.Orderly) (fuel : Nat) : (g.operatorType fuel).Orderly := by
  induction fuel with
  | zero => exact .failure
  | succ fuel ih =>
    have hprefixed (start : Nat) : Reader.Orderly (do
        keyword "keyof" <|> modifierOf ["unique", "readonly"]
        let t ← g.operatorType fuel
        return parts start [t]) :=
      .after ((forward_keyword _).orElse (forward_modifierOf _)) fun _ => .bind ih fun _ =>
        .pure (by simp)
    have hbound : Reader.Orderly (do
        keyword "extends"
        let t ← g.operatorType fuel
        check !(← markAhead "?")
        return t) :=
      .after (forward_keyword _) fun _ => .bind ih fun _ => .after (forward_markAhead _) fun _ =>
        .after (forward_check _) fun _ => .pure (by simp)
    exact .after forward_here fun start => (hprefixed start).orElse
      ((Keeps.after (forward_keyword _) fun _ => .after forward_word.discard fun _ =>
        .bind (.listOf hbound) fun _ => .pure (by simp)).orElse (orderly_arrayType hg))

theorem orderly_chained (m : Char) {p : Reader Tree} (hp : p.Orderly) :
    (g.chained m p).Orderly := by
  refine .after forward_here fun start => ?_
  extract_lets _ single
  have hsingle : Forward single := by
    refine forward_ahead.bind fun cs => ?_
    split
    · exact (forward_check _).bind fun _ => forward_skip _
    · exact Forward.failure.bind fun _ => forward_skip _
  refine .after hsingle.optionally.discard fun _ => .bind hp fun _ =>
    .bind (.many (.seqRight hsingle hp) _) fun _ => .pure fun n => ?_
  split <;> simp

theorem orderly_unionType (hg : g.Orderly) : g.unionType.Orderly :=
  orderly_chained '|' (orderly_chained '&'
    ((orderly_functionType hg).orElse (orderly_operatorType hg _)))

theorem orderly_predicateType (hg : g.Orderly) : g.predicateType.Orderly :=
  .after forward_here fun _ => .orElse
    (.after (forward_keyword _) fun _ => .after forward_newlineAhead fun _ =>
      .after (forward_check _) fun _ => .after forward_word.discard fun _ =>
      .bind (.listOf (.seqRight (forward_keywordHere _) (hg _))) fun _ => .pure (by simp))
    (.after forward_word.discard fun _ => .after (forward_keywordHere _) fun _ =>
      .bind (hg _) fun _ => .pure (by simp))

theorem orderly_typeRule (hg : g.Orderly) : g.typeRule.Orderly :=
  (orderly_predicateType hg).orElse ((orderly_functionType hg).orElse
    (.bind (orderly_unionType hg) fun _ => .orElse
      (.after (forward_keywordHere _) fun _ => .bind (orderly_unionType hg) fun _ =>
        .after (forward_mark _) fun _ => .bind (hg _) fun _ => .after (forward_mark _) fun _ =>
        .bind (hg _) fun _ => .pure (by simp; omega))
      (.pure (by simp))))

end Localization.Script.Grammar
