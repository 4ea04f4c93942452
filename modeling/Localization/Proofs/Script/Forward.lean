import Localization.Script.Literal

/-! Readers never go back: what they succeed with leaves the cursor where it was or further on. -/

namespace Localization.Script.Reader

variable {α β : Type}

/-- Wherever a reader succeeds, the cursor has not gone back. -/
def Forward (p : Reader α) : Prop :=
  ∀ c a d, p c = some (a, d) → c.offset ≤ d.offset

/-- What a reader bound to another read, and where the first one stopped. -/
theorem bind_eq_some {p : Reader α} {f : α → Reader β} {c e : Cursor} {b : β}
    (h : (p >>= f) c = some (b, e)) : ∃ a d, p c = some (a, d) ∧ f a d = some (b, e) := by
  obtain ⟨⟨a, d⟩, hp, hf⟩ := Option.bind_eq_some_iff.mp h
  exact ⟨a, d, hp, hf⟩

theorem orElse_eq_some {p q : Reader α} {c d : Cursor} {a : α}
    (h : (p <|> q) c = some (a, d)) : p c = some (a, d) ∨ q c = some (a, d) := by
  have horElse : (p <|> q) c = (p c <|> q c) := rfl
  rw [horElse] at h
  cases hp : p c with
  | none => exact .inr (by simpa [hp] using h)
  | some r => exact .inl (by simpa [hp] using h)

theorem map_eq_some {p : Reader α} {f : α → β} {c d : Cursor} {b : β}
    (h : (f <$> p) c = some (b, d)) : ∃ a, p c = some (a, d) ∧ f a = b := by
  obtain ⟨⟨a, e⟩, hp, hf⟩ := Option.bind_eq_some_iff.mp h
  obtain ⟨rfl, rfl⟩ := Prod.mk.inj (Option.some.inj hf)
  exact ⟨a, hp, rfl⟩

namespace Forward

theorem pure (a : α) : Forward (Pure.pure a) := by
  intro c b d h
  obtain ⟨-, rfl⟩ := Prod.mk.inj (Option.some.inj h)
  exact Nat.le_refl _

theorem failure : Forward (Alternative.failure : Reader α) := fun _ _ _ h => nomatch h

theorem bind {p : Reader α} {f : α → Reader β} (hp : p.Forward) (hf : ∀ a, (f a).Forward) :
    Forward (p >>= f) := by
  intro c b e h
  obtain ⟨a, d, hd, he⟩ := bind_eq_some h
  exact Nat.le_trans (hp c a d hd) (hf a d b e he)

theorem seqRight {p : Reader α} {q : Reader β} (hp : p.Forward) (hq : q.Forward) :
    Forward (p *> q) :=
  hp.bind fun _ => hq

theorem orElse {p q : Reader α} (hp : p.Forward) (hq : q.Forward) : Forward (p <|> q) := by
  intro c a d h
  rcases orElse_eq_some h with h | h
  · exact hp c a d h
  · exact hq c a d h

theorem map {p : Reader α} (hp : p.Forward) (f : α → β) : Forward (f <$> p) := by
  intro c b d h
  obtain ⟨a, ha, -⟩ := map_eq_some h
  exact hp c a d ha

theorem discard {p : Reader α} (hp : p.Forward) : Forward (Functor.discard p) := hp.map _

theorem optionally {p : Reader α} (hp : p.Forward) : p.optionally.Forward :=
  (hp.map _).orElse (.pure _)

theorem many {p : Reader α} (hp : p.Forward) (fuel : Nat) : (Reader.many p fuel).Forward := by
  induction fuel with
  | zero => exact .pure []
  | succ fuel ih =>
    intro c as e h
    simp only [Reader.many] at h
    split at h
    · obtain ⟨-, rfl⟩ := Prod.mk.inj (Option.some.inj h)
      exact Nat.le_refl _
    · rename_i a d hd
      split at h
      · obtain ⟨-, rfl⟩ := Prod.mk.inj (Option.some.inj h)
        exact Nat.le_refl _
      · have hle := hp c a d hd
        split at h
        · rename_i as' e' he
          obtain ⟨-, rfl⟩ := Prod.mk.inj (Option.some.inj h)
          exact Nat.le_trans hle (ih d as' e' he)
        · obtain ⟨-, rfl⟩ := Prod.mk.inj (Option.some.inj h)
          exact hle

end Forward

/-! The readers of tokens. -/

section Tokens

theorem le_skipGap (inside : Inside) (broken : Bool) (cs : List Char) (n : Nat) :
    n ≤ (skipGap inside broken cs n).2.offset := by
  fun_induction skipGap inside broken cs n <;> first | exact Nat.le_refl _ | omega

theorem forward_gapBreaks : gapBreaks.Forward := by
  intro c a d h
  obtain ⟨-, rfl⟩ := Prod.mk.inj (Option.some.inj h)
  exact le_skipGap .blank false c.rest c.offset

theorem forward_gap : gap.Forward := forward_gapBreaks.discard

theorem forward_newlineAhead : newlineAhead.Forward := by
  intro c a d h
  obtain ⟨-, rfl⟩ := Prod.mk.inj (Option.some.inj h)
  exact Nat.le_refl _

theorem forward_ahead : ahead.Forward := by
  intro c a d h
  obtain ⟨-, rfl⟩ := Prod.mk.inj (Option.some.inj h)
  exact Nat.le_refl _

theorem forward_get : Forward (get : Reader Cursor) := by
  intro c a d h
  obtain ⟨-, rfl⟩ := Prod.mk.inj (Option.some.inj h)
  exact Nat.le_refl _

theorem forward_here : here.Forward := forward_gap.bind fun _ => forward_get.bind fun _ => .pure _

theorem forward_advance (n : Nat) : (advance n).Forward := by
  intro c a d h
  obtain ⟨-, rfl⟩ := Prod.mk.inj (Option.some.inj h)
  exact Nat.le_add_right _ _

theorem forward_skip (n : Nat) : (skip n).Forward := forward_gap.bind fun _ => forward_advance n

theorem forward_since (c : Cursor) : (since c).Forward := forward_get.bind fun _ => .pure _

theorem forward_check (b : Bool) : (check b).Forward := by
  unfold check
  split
  · exact .pure ()
  · exact .failure

theorem get_eq_some {c d e : Cursor} (h : (get : Reader Cursor) c = some (e, d)) :
    e = c ∧ d = c := by
  obtain ⟨rfl, rfl⟩ := Prod.mk.inj (Option.some.inj h)
  exact ⟨rfl, rfl⟩

/-- The offset that is given is that of the cursor. -/
theorem here_eq_some {c d : Cursor} {n : Nat} (h : here c = some (n, d)) :
    n = d.offset ∧ c.offset ≤ d.offset := by
  refine ⟨?_, forward_here c n d h⟩
  obtain ⟨-, d, -, h⟩ := bind_eq_some h
  obtain ⟨e, d', hget, h⟩ := bind_eq_some h
  obtain ⟨rfl, rfl⟩ := get_eq_some hget
  obtain ⟨rfl, rfl⟩ := Prod.mk.inj (Option.some.inj h)
  rfl

/-- A mark takes as many characters as it has. -/
theorem mark_eq_some {s : String} {c d : Cursor} {u : Unit} (h : mark s c = some (u, d)) :
    c.offset + s.toList.length ≤ d.offset := by
  obtain ⟨u, e, hgap, hrest⟩ := bind_eq_some h
  obtain ⟨e', d', hget, hset⟩ := bind_eq_some hrest
  obtain ⟨rfl, rfl⟩ := get_eq_some hget
  have hle := forward_gap c u _ hgap
  cases hmark : afterMark? s.toList d'.rest with
  | none => simp only [hmark] at hset; cases hset
  | some rest =>
    simp only [hmark] at hset
    obtain ⟨-, rfl⟩ := Prod.mk.inj (Option.some.inj hset)
    exact Nat.add_le_add_right hle _

theorem forward_mark (s : String) : (mark s).Forward := fun _ _ _ h =>
  Nat.le_trans (Nat.le_add_right _ _) (mark_eq_some h)

theorem forward_markAhead (s : String) : (markAhead s).Forward :=
  forward_ahead.bind fun _ => .pure _

theorem forward_wordAhead : wordAhead.Forward := by
  refine forward_ahead.bind fun cs => ?_
  split
  · exact .pure _
  · exact .pure _

theorem forward_word : word.Forward :=
  forward_here.bind fun _ => forward_wordAhead.bind fun _ => (forward_check _).bind fun _ =>
    (forward_advance _).bind fun _ => .pure _

theorem forward_keyword (s : String) : (keyword s).Forward :=
  forward_wordAhead.bind fun _ => (forward_check _).bind fun _ => forward_skip _

theorem forward_keywordHere (s : String) : (keywordHere s).Forward :=
  forward_newlineAhead.bind fun _ => (forward_check _).bind fun _ => forward_keyword s

theorem forward_semicolon : semicolon.Forward := by
  refine (forward_mark ";").orElse ?_
  refine forward_newlineAhead.bind fun broken => forward_ahead.bind fun cs => ?_
  split
  · exact .pure ()
  · exact .pure ()
  · exact forward_check broken

end Tokens

end Localization.Script.Reader
