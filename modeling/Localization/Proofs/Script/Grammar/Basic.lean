import Localization.Proofs.Script.Sites

/-! Literals, names of properties, comments and arguments are laid apart, given that the rules of the
grammar are. -/

namespace Localization.Script

open Reader

/-! Literals. They hold no sites. -/

theorem opens_flush (start : Nat) (run : List Char) (n : Nat) :
    opens n (flush .fragment start run) = 0 := by
  unfold flush
  split <;> simp

theorem stringParts_eq_some {quote : Char} {left start offset : Nat} {run cs : List Char}
    {ts : List Tree} {d : Cursor} (h : stringParts quote left start offset run cs = some (ts, d)) :
    offset ≤ d.offset ∧ ∀ n, opens n ts = 0 := by
  induction cs generalizing left start offset run ts d with
  | nil => simp [stringParts] at h
  | cons c cs ih =>
    have hrest : ∀ (before : List Tree) {left start run}, (∀ n, opens n before = 0) →
        (stringParts quote left start (offset + 1) run cs).map
          (fun r => (before ++ r.1, r.2)) = some (ts, d) → offset ≤ d.offset ∧ ∀ n, opens n ts = 0 := by
      intro before left start run hbefore h
      obtain ⟨⟨rs, e⟩, hread, heq⟩ := Option.map_eq_some_iff.mp h
      obtain ⟨rfl, rfl⟩ := Prod.mk.inj heq
      obtain ⟨hle, hopens⟩ := ih hread
      exact ⟨Nat.le_of_succ_le hle, fun n => by simp [hbefore n, hopens n]⟩
    rcases left with _ | _ | left
    · simp only [stringParts] at h
      split at h
      · obtain ⟨rfl, rfl⟩ := Prod.mk.inj (Option.some.inj h)
        exact ⟨Nat.le_add_right _ _, opens_flush start run⟩
      · split at h
        · exact hrest _ (opens_flush start run) h
        · split at h
          · cases h
          · obtain ⟨hle, hopens⟩ := ih h
            exact ⟨by omega, hopens⟩
    · exact hrest [.leaf .escape start (c :: run).reverse] (by simp) h
    · obtain ⟨hle, hopens⟩ := ih h
      exact ⟨by omega, hopens⟩

theorem orderly_stringLiteral : stringLiteral.Orderly := by
  refine .after forward_gap fun _ => ?_
  intro c t e h
  obtain ⟨c', c'', hget, hread⟩ := bind_eq_some h
  obtain ⟨rfl, rfl⟩ := get_eq_some hget
  cases hcs : c''.rest with
  | nil => simp only [hcs] at hread; cases hread
  | cons q cs =>
    simp only [hcs] at hread
    obtain ⟨u, d, hcheck, hread⟩ := bind_eq_some hread
    have hle := forward_check _ _ _ _ hcheck
    cases hparts : stringParts q 0 (c''.offset + 1) (c''.offset + 1) [] cs with
    | none => simp only [hparts] at hread; cases hread
    | some r =>
      simp only [hparts] at hread
      obtain ⟨rfl, rfl⟩ := Prod.mk.inj (Option.some.inj hread)
      obtain ⟨hoffset, hopens⟩ := stringParts_eq_some hparts
      exact ⟨Nat.le_of_succ_le hoffset, fun n => by simp [hopens n]⟩

theorem orderly_markupString : markupString.Orderly := by
  refine .after forward_gap fun _ => .after forward_get fun c => ?_
  split
  · exact .after (forward_check _) fun _ => .after (forward_check _) fun _ =>
      .after (forward_advance _) fun _ => .pure (by simp)
  · exact .failure

theorem orderly_number : number.Orderly :=
  .after forward_here fun _ => .after forward_get fun _ => .after (forward_check _) fun _ =>
    .after (forward_advance _) fun _ => .pure (by simp)

theorem orderly_regularExpression : regularExpression.Orderly := by
  refine .after forward_here fun _ => .after forward_get fun _ => ?_
  split
  · split
    · exact .after (forward_advance _) fun _ => .pure (by simp)
    · exact .failure
  · exact .failure

namespace Grammar

variable {g : Grammar}

/-- Every rule of a grammar is laid apart. -/
def Orderly (g : Grammar) : Prop := ∀ r, (g.rule r).Orderly

theorem forward_modifierOf (words : List String) : (modifierOf words).Forward :=
  forward_wordAhead.bind fun _ => (forward_check _).bind fun _ => (forward_skip _).bind fun _ =>
    forward_ahead.bind fun _ => forward_check _

theorem orderly_annotated (hg : g.Orderly) : g.typeAnnotation.Orderly :=
  .listOf (.seqRight (forward_mark ":") (hg .type))

theorem orderly_comments : g.comments.Orderly := by
  refine .many (.after forward_get fun c => ?_) g.fuel
  have hblanks : Forward (modify fun c : Cursor =>
      let blanks := c.rest.takeWhile isSpace
      (⟨c.rest.drop blanks.length, c.offset + blanks.length⟩ : Cursor)) := by
    intro c a d h
    obtain ⟨-, rfl⟩ := Prod.mk.inj (Option.some.inj h)
    exact Nat.le_add_right _ _
  refine .after hblanks fun _ => .after forward_get fun _ => .after forward_get fun d => ?_
  split
  · exact .after forward_get fun _ => .after (forward_advance _) fun _ => .pure (by simp)
  · exact .after (forward_advance _) fun _ => .pure (by simp)
  · intro d a e h
    obtain ⟨u, d', hset, hfail⟩ := bind_eq_some h
    cases hfail

theorem orderly_propertyName (hg : g.Orderly) : g.propertyName.Orderly := by
  refine .after forward_here fun start => .after forward_get fun c => ?_
  split
  · exact .after (forward_mark _) fun _ => .bind (hg _) fun _ => .after (forward_mark _) fun _ =>
      .pure (by simp)
  · exact .after (forward_mark _) fun _ => .after forward_word fun _ => .pure (by simp)
  · split
    · exact orderly_stringLiteral
    · split
      · exact orderly_number
      · exact .after forward_word fun _ => .pure (by simp)
  · exact .failure

theorem orderly_spread (hg : g.Orderly) (start : Nat) : (g.spread start).Orderly :=
  .after (forward_mark _) fun _ => .bind (hg _) fun _ => .pure (by simp)

theorem orderly_argumentList (hg : g.Orderly) : g.argumentList.Orderly := by
  have hend : Forward (mark "," <|> (do check (← markAhead ")"))) :=
    (forward_mark _).orElse ((forward_markAhead _).bind fun _ => forward_check _)
  refine .site (by decide) fun start => .bind (.many ?_ _) fun items => ?_
  · exact .bind orderly_comments fun _ => .after (forward_markAhead _) fun _ =>
      .after (forward_check _) fun _ => .after forward_here fun start =>
      .bind ((orderly_spread hg start).orElse (hg _)) fun _ => .bind orderly_comments fun _ =>
      .after hend fun _ => .pure (by simp; omega)
  · exact .bind orderly_comments fun _ => .after (forward_mark _) fun _ => .pure (by simp; omega)

theorem argumentList_isSite : g.argumentList.Gives fun t => t.kind.isSite = true :=
  .bind fun _ => .bind fun _ => .bind fun _ => .bind fun _ => .bind fun _ => .pure rfl

end Grammar

end Localization.Script
