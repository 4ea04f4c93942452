import Localization.Proofs.Script.Sites

/-! Names and the runs of strings stand in a script as the leaves of its tree have them. A reader
quotes a script if, wherever it begins in the script, it stops there too and gives only leaves of
that kind. Readers of most constructs are put together from others that do, so that instances find
it. -/

namespace Localization.Script

/-- The kinds of leaves whose characters are looked at as names. -/
def Kind.isName : Kind → Bool
  | .identifier | .propertyName | .shorthandProperty | .fragment => true
  | _ => false

/-- What a reader can give, and when that comes from a script. -/
class Quotable (α : Type) where
  quoted : List Char → α → Prop

export Quotable (quoted)

/-- What is given comes from a script. -/
class Quoted {α : Type} [Quotable α] (script : List Char) (a : α) : Prop where
  holds : quoted script a

instance : Quotable Unit := ⟨fun _ _ => True⟩

instance : Quotable Bool := ⟨fun _ _ => True⟩

instance : Quotable Nat := ⟨fun _ _ => True⟩

instance : Quotable (List Char) := ⟨fun script cs => cs <:+: script⟩

instance {α : Type} : Quotable (α × List Char) := ⟨fun script p => p.2 <:+: script⟩

instance : Quotable Cursor := ⟨fun script c => c.rest <:+ script⟩

/-- A name is part of the script, and no template is a leaf. -/
instance : Quotable Tree :=
  ⟨fun script t => ∀ k n w, .leaf k n w ∈ t.subtrees →
    k ≠ .template ∧ (k.isName = true → w <:+: script)⟩

instance {α : Type} [Quotable α] : Quotable (List α) := ⟨fun script as => ∀ a ∈ as, quoted script a⟩

instance {α : Type} [Quotable α] : Quotable (Option α) := ⟨fun script o => ∀ a ∈ o, quoted script a⟩

variable {script : List Char}

section Values

variable {α : Type} [Quotable α]

instance (a : {a : α // quoted script a}) : Quoted script a.1 := ⟨a.2⟩

instance (u : Unit) : Quoted script u := ⟨trivial⟩

instance (b : Bool) : Quoted script b := ⟨trivial⟩

instance (n : Nat) : Quoted script n := ⟨trivial⟩

instance {β : Type} (b : β) (cs : List Char) [h : Quoted script cs] : Quoted script (b, cs) :=
  ⟨h.holds⟩

instance {β : Type} (p : β × List Char) [h : Quoted script p] : Quoted script p.2 := ⟨h.holds⟩

instance : Quoted script ([] : List Char) := ⟨List.nil_infix⟩

instance (c : Cursor) [h : Quoted script c] : Quoted script c.rest := ⟨h.holds.isInfix⟩

instance : Quoted script ([] : List α) := ⟨fun _ h => absurd h List.not_mem_nil⟩

instance (a : α) (as : List α) [ha : Quoted script a] [has : Quoted script as] :
    Quoted script (a :: as) :=
  ⟨fun b hb => by
    rcases List.mem_cons.mp hb with rfl | hb
    · exact ha.holds
    · exact has.holds b hb⟩

instance (as bs : List α) [has : Quoted script as] [hbs : Quoted script bs] :
    Quoted script (as ++ bs) :=
  ⟨fun a ha => (List.mem_append.mp ha).elim (has.holds a) (hbs.holds a)⟩

instance (ass : List (List α)) [h : Quoted script ass] : Quoted script ass.flatten :=
  ⟨fun a ha => by
    obtain ⟨as, has, ha⟩ := List.mem_flatten.mp ha
    exact h.holds as has a ha⟩

instance (c : Prop) [Decidable c] (a b : α) [ha : Quoted script a] [hb : Quoted script b] :
    Quoted script (if c then a else b) :=
  ⟨by
    split
    · exact ha.holds
    · exact hb.holds⟩

end Values

section Trees

instance quoted_node (k : Kind) (n : Nat) (ts : List Tree) [h : Quoted script ts] :
    Quoted script (Tree.node k n ts) :=
  ⟨fun k' m w hmem => by
    rcases List.mem_cons.mp hmem with heq | hmem
    · cases heq
    · obtain ⟨t, ht, hmem⟩ := Tree.mem_subtreesOf.mp hmem
      exact h.holds t ht k' m w hmem⟩

/-- A leaf whose characters are looked at as a name. -/
theorem quoted_leaf {k : Kind} (hk : k ≠ .template) (n : Nat) {w : List Char}
    (hw : k.isName = true → w <:+: script) : Quoted script (Tree.leaf k n w) :=
  ⟨fun k' m w' hmem => by
    cases List.mem_singleton.mp hmem
    exact ⟨hk, hw⟩⟩

variable (n : Nat) (w : List Char)

instance [h : Quoted script w] : Quoted script (Tree.leaf .identifier n w) :=
  quoted_leaf (by decide) n fun _ => h.holds

instance [h : Quoted script w] : Quoted script (Tree.leaf .propertyName n w) :=
  quoted_leaf (by decide) n fun _ => h.holds

instance [h : Quoted script w] : Quoted script (Tree.leaf .shorthandProperty n w) :=
  quoted_leaf (by decide) n fun _ => h.holds

instance [h : Quoted script w] : Quoted script (Tree.leaf .fragment n w) :=
  quoted_leaf (by decide) n fun _ => h.holds

instance : Quoted script (Tree.leaf .number n w) := quoted_leaf (by decide) n nofun

instance : Quoted script (Tree.leaf .escape n w) := quoted_leaf (by decide) n nofun

instance : Quoted script (Tree.leaf .chunk n w) := quoted_leaf (by decide) n nofun

instance : Quoted script (Tree.leaf .source n w) := quoted_leaf (by decide) n nofun

instance : Quoted script (Tree.leaf .comment n w) := quoted_leaf (by decide) n nofun

instance : Quoted script (Tree.leaf .other n w) := quoted_leaf (by decide) n nofun

instance (c : Prop) [Decidable c] (k l : Kind) [hk : Quoted script (Tree.leaf k n w)]
    [hl : Quoted script (Tree.leaf l n w)] :
    Quoted script (Tree.leaf (if c then k else l) n w) := by
  split
  · exact hk
  · exact hl

end Trees

namespace Reader

/-- A reader that begins in a script stops in it and gives what comes from it. -/
class Quoting {α : Type} [Quotable α] (script : List Char) (p : Reader α) : Prop where
  reads : ∀ c a d, c.rest <:+ script → p c = some (a, d) → d.rest <:+ script ∧ quoted script a

section Combinators

variable {α β : Type} [Quotable α] [Quotable β]

theorem Quoting.bind {p : Reader α} {f : α → Reader β} [hp : Quoting script p]
    (hf : ∀ a, Quoted script a → Quoting script (f a)) : Quoting script (p >>= f) :=
  ⟨fun c b e hc h => by
    obtain ⟨a, d, ha, hb⟩ := bind_eq_some h
    obtain ⟨hd, hquoted⟩ := hp.reads c a d hc ha
    exact (hf a ⟨hquoted⟩).reads d b e hd hb⟩

/-- Instances are looked for at what is given with the fact that it comes from the script. -/
instance {p : Reader α} {f : α → Reader β} [Quoting script p]
    [hf : ∀ a : {a : α // quoted script a}, Quoting script (f a.1)] : Quoting script (p >>= f) :=
  .bind fun a ha => hf ⟨a, ha.holds⟩

instance (p : Reader Unit) (q : Reader β) [Quoting script p] [Quoting script q] :
    Quoting script (p >>= fun _ => q) :=
  .bind fun _ _ => inferInstance

instance (a : α) [h : Quoted script a] : Quoting script (pure a : Reader α) :=
  ⟨fun c b d hc hread => by
    obtain ⟨rfl, rfl⟩ := Prod.mk.inj (Option.some.inj hread)
    exact ⟨hc, h.holds⟩⟩

instance : Quoting script (failure : Reader α) := ⟨fun _ _ _ _ h => nomatch h⟩

instance (c : Prop) [Decidable c] (p q : Reader α) [hp : Quoting script p] [hq : Quoting script q] :
    Quoting script (if c then p else q) := by
  split
  · exact hp
  · exact hq

instance (p q : Reader α) [hp : Quoting script p] [hq : Quoting script q] :
    Quoting script (p <|> q) :=
  ⟨fun c a d hc h => (orElse_eq_some h).elim (hp.reads c a d hc) (hq.reads c a d hc)⟩

instance (p : Reader α) (q : Reader β) [Quoting script p] [Quoting script q] :
    Quoting script (p *> q) :=
  .bind (p := p) fun _ _ => inferInstance

theorem Quoting.map {p : Reader α} {f : α → β} [hp : Quoting script p]
    (hf : ∀ a, quoted script a → quoted script (f a)) : Quoting script (f <$> p) :=
  ⟨fun c b d hc h => by
    obtain ⟨a, ha, rfl⟩ := map_eq_some h
    obtain ⟨hd, hquoted⟩ := hp.reads c a d hc ha
    exact ⟨hd, hf a hquoted⟩⟩

instance (p : Reader α) [Quoting script p] : Quoting script (discard p) := .map fun _ _ => trivial

instance (p : Reader α) [Quoting script p] : Quoting script p.optionally := by
  have hsome : Quoting script (some <$> p) := .map fun a ha b hb => Option.mem_some.mp hb ▸ ha
  have hnone : Quoting script (pure none : Reader (Option α)) :=
    ⟨fun c b d hc h => by
      obtain ⟨rfl, rfl⟩ := Prod.mk.inj (Option.some.inj h)
      exact ⟨hc, nofun⟩⟩
  unfold optionally
  infer_instance

instance (p : Reader α) [Quoting script p] : Quoting script p.listOf := by
  have hone : Quoting script ((fun a => [a]) <$> p) :=
    .map fun a ha b hb => List.mem_singleton.mp hb ▸ ha
  unfold listOf
  infer_instance

instance quoting_many (p : Reader α) (fuel : Nat) [hp : Quoting script p] :
    Quoting script (many p fuel) := by
  induction fuel with
  | zero => exact inferInstanceAs (Quoting script (pure ([] : List α)))
  | succ fuel ih =>
    refine ⟨fun c as e hc h => ?_⟩
    simp only [many] at h
    split at h
    · obtain ⟨rfl, rfl⟩ := Prod.mk.inj (Option.some.inj h)
      exact ⟨hc, nofun⟩
    · rename_i a d hd
      obtain ⟨hrest, hquoted⟩ := hp.reads c a d hc hd
      split at h
      · obtain ⟨rfl, rfl⟩ := Prod.mk.inj (Option.some.inj h)
        exact ⟨hc, nofun⟩
      · split at h
        · rename_i as' e' he
          obtain ⟨rfl, rfl⟩ := Prod.mk.inj (Option.some.inj h)
          obtain ⟨hend, hquoted'⟩ := ih.reads d as' e' hrest he
          exact ⟨hend, fun b hb => (List.mem_cons.mp hb).elim (· ▸ hquoted) (hquoted' b)⟩
        · obtain ⟨rfl, rfl⟩ := Prod.mk.inj (Option.some.inj h)
          exact ⟨hrest, fun b hb => List.mem_singleton.mp hb ▸ hquoted⟩

end Combinators

/-! The readers of tokens. -/

section Tokens

theorem skipGap_suffix (inside : Inside) (broken : Bool) (cs : List Char) (n : Nat) :
    (skipGap inside broken cs n).2.rest <:+ cs := by
  fun_induction skipGap inside broken cs n <;>
    first
    | exact List.suffix_refl _
    | exact List.IsSuffix.trans ‹_› (List.suffix_cons _ _)
    | exact List.IsSuffix.trans ‹_› ((List.suffix_cons _ _).trans (List.suffix_cons _ _))

instance : Quoting script gapBreaks :=
  ⟨fun c b d hc h => by
    obtain ⟨rfl, rfl⟩ := Prod.mk.inj (Option.some.inj h)
    exact ⟨(skipGap_suffix _ _ _ _).trans hc, trivial⟩⟩

instance : Quoting script gap := inferInstanceAs (Quoting script (discard gapBreaks))

instance : Quoting script newlineAhead :=
  ⟨fun c b d hc h => by
    obtain ⟨rfl, rfl⟩ := Prod.mk.inj (Option.some.inj h)
    exact ⟨hc, trivial⟩⟩

instance : Quoting script ahead :=
  ⟨fun c cs d hc h => by
    obtain ⟨rfl, rfl⟩ := Prod.mk.inj (Option.some.inj h)
    exact ⟨hc, ((skipGap_suffix _ _ _ _).trans hc).isInfix⟩⟩

instance : Quoting script (get : Reader Cursor) :=
  ⟨fun c a d hc h => by
    obtain ⟨rfl, rfl⟩ := get_eq_some h
    exact ⟨hc, hc⟩⟩

theorem quoting_modify {f : Cursor → Cursor} (hf : ∀ c, (f c).rest <:+ c.rest) :
    Quoting script (modify f : Reader PUnit) :=
  ⟨fun c a d hc h => by
    obtain ⟨-, rfl⟩ := Prod.mk.inj (Option.some.inj h)
    exact ⟨(hf c).trans hc, trivial⟩⟩

instance (n : Nat) : Quoting script (advance n) := quoting_modify fun _ => List.drop_suffix n _

instance quoting_set (c : Cursor) [h : Quoted script c] : Quoting script (set c : Reader PUnit) :=
  ⟨fun d a e _ hread => by
    obtain ⟨-, rfl⟩ := Prod.mk.inj (Option.some.inj hread)
    exact ⟨h.holds, trivial⟩⟩

instance : Quoting script here := by
  unfold here
  infer_instance

instance (n : Nat) : Quoting script (skip n) := by
  unfold skip
  infer_instance

instance quoting_since (c : Cursor) [h : Quoted script c] : Quoting script (since c) := by
  unfold since
  refine .bind fun d _ => ?_
  have hraw : Quoted script (c.rest.take (d.offset - c.offset)) :=
    ⟨(List.take_prefix _ _).isInfix.trans h.holds.isInfix⟩
  infer_instance

instance (b : Bool) : Quoting script (check b) := by
  unfold check
  split <;> infer_instance

theorem afterMark?_suffix {m cs rest : List Char} (h : afterMark? m cs = some rest) :
    rest <:+ cs := by
  fun_induction afterMark? m cs with
  | case1 cs => exact Option.some.inj h ▸ List.suffix_refl _
  | case2 => cases h
  | case3 m ms c cs heq ih => exact (ih h).trans (List.suffix_cons _ _)
  | case4 => cases h

instance (s : String) : Quoting script (mark s) := by
  unfold mark
  refine .bind fun _ _ => .bind fun c hc => ?_
  split
  · rename_i rest hmark
    refine .bind fun d _ => ?_
    have hrest : Quoted script (⟨rest, d.offset + s.toList.length⟩ : Cursor) :=
      ⟨(afterMark?_suffix hmark).trans hc.holds⟩
    exact quoting_set _
  · infer_instance

instance (s : String) : Quoting script (markAhead s) := by
  unfold markAhead
  infer_instance

mutual

theorem nameAt_isPrefix (cs : List Char) : nameAt cs <+: cs := by
  unfold nameAt
  split
  · simpa only [List.prefix_cons_inj] using braced_isPrefix _
  · simpa only [List.prefix_cons_inj] using nameAt_isPrefix _
  · split
    · simpa only [List.prefix_cons_inj] using nameAt_isPrefix _
    · exact List.nil_prefix
  · exact List.prefix_refl _
termination_by cs.length

theorem braced_isPrefix (cs : List Char) : nameAt.braced cs <+: cs := by
  unfold nameAt.braced
  split
  · simpa only [List.prefix_cons_inj] using nameAt_isPrefix _
  · simpa only [List.prefix_cons_inj] using braced_isPrefix _
  · exact List.prefix_refl _
termination_by cs.length

end

instance : Quoting script wordAhead := by
  unfold wordAhead
  refine .bind fun cs hcs => ?_
  split
  · rename_i c cs
    have hname : Quoted script (nameAt (c :: cs)) :=
      ⟨(nameAt_isPrefix _).isInfix.trans hcs.holds⟩
    infer_instance
  · infer_instance

instance : Quoting script word := by
  unfold word
  infer_instance

instance (s : String) : Quoting script (keyword s) := by
  unfold keyword
  infer_instance

instance (s : String) : Quoting script (keywordHere s) := by
  unfold keywordHere
  infer_instance

instance : Quoting script semicolon := by
  unfold semicolon
  have hend : Quoting script (do
      let broken ← newlineAhead
      match ← ahead with
      | [] => pure ()
      | '}' :: _ => pure ()
      | _ => check broken) := by
    refine .bind fun broken _ => .bind fun cs _ => ?_
    split <;> infer_instance
  infer_instance

instance {α : Type} [Quotable α] (fuel : Nat) (separator : String) (p : Reader α)
    [Quoting script p] : Quoting script (sepBy fuel separator p) := by
  unfold sepBy
  infer_instance

end Tokens

/-! Literals. The runs of a string stand in it between escape sequences. -/

section Literals

theorem quoted_flush (start : Nat) {run cs : List Char} (h : run.reverse ++ cs <:+ script) :
    Quoted script (flush .fragment start run) := by
  unfold flush
  have hrun : Quoted script run.reverse := ⟨(List.prefix_append _ _).isInfix.trans h.isInfix⟩
  split <;> infer_instance

/-- Outside of an escape sequence, what has been read of a run stands before what is left. -/
theorem stringParts_quoted {quote : Char} {left start offset : Nat} {run cs : List Char}
    {ts : List Tree} {d : Cursor} (hcs : cs <:+ script)
    (hrun : left = 0 → run.reverse ++ cs <:+ script)
    (h : stringParts quote left start offset run cs = some (ts, d)) :
    d.rest <:+ script ∧ Quoted script ts := by
  induction cs generalizing left start offset run ts d with
  | nil => simp [stringParts] at h
  | cons c cs ih =>
    have hrest : cs <:+ script := (List.suffix_cons c cs).trans hcs
    have hnext (hleft : left = 0) : (c :: run).reverse ++ cs <:+ script := by
      simpa using hrun hleft
    have hbefore : ∀ (before : List Tree) {left start run}, Quoted script before →
        (left = 0 → run.reverse ++ cs <:+ script) →
        (stringParts quote left start (offset + 1) run cs).map
          (fun r => (before ++ r.1, r.2)) = some (ts, d) →
        d.rest <:+ script ∧ Quoted script ts := by
      intro before left start run hquoted hrun h
      obtain ⟨⟨rs, e⟩, hread, heq⟩ := Option.map_eq_some_iff.mp h
      obtain ⟨rfl, rfl⟩ := Prod.mk.inj heq
      obtain ⟨hend, hparts⟩ := ih hrest hrun hread
      exact ⟨hend, inferInstance⟩
    rcases left with _ | _ | left
    · have hflush := quoted_flush start (hrun rfl)
      simp only [stringParts] at h
      split at h
      · obtain ⟨rfl, rfl⟩ := Prod.mk.inj (Option.some.inj h)
        exact ⟨hrest, hflush⟩
      · split at h
        · rename_i hescape
          cases beq_iff_eq.mp hescape
          exact hbefore _ hflush (fun _ => by simpa using hcs) h
        · split at h
          · cases h
          · exact ih hrest (fun _ => hnext rfl) h
    · exact hbefore [.leaf .escape start (c :: run).reverse] inferInstance (fun _ => by simpa) h
    · have hread : stringParts quote (left + 1) start (offset + 1) (c :: run) cs = some (ts, d) := h
      exact ih hrest (by simp) hread

instance : Quoting script stringLiteral := by
  unfold stringLiteral
  refine .bind fun _ _ => .bind fun c hc => ?_
  split
  · rename_i q cs hcs
    have hrest : cs <:+ script := (List.suffix_cons q cs).trans (hcs ▸ hc.holds)
    refine .bind fun _ _ => ?_
    split
    · rename_i parts d hparts
      obtain ⟨hend, hquoted⟩ := stringParts_quoted hrest (fun _ => by simpa using hrest) hparts
      have hd : Quoted script d := ⟨hend⟩
      infer_instance
    · infer_instance
  · infer_instance

instance : Quoting script markupString := by
  unfold markupString
  refine .bind fun _ _ => .bind fun c hc => ?_
  split
  · rename_i q cs hcs
    have hinner : Quoted script (cs.takeWhile (· ≠ q)) :=
      ⟨(List.takeWhile_prefix _).isInfix.trans
        ((List.suffix_cons q cs).trans (hcs ▸ hc.holds)).isInfix⟩
    infer_instance
  · infer_instance

instance : Quoting script number := by
  unfold number
  infer_instance

instance : Quoting script regularExpression := by
  unfold regularExpression
  refine .bind fun _ _ => .bind fun c _ => ?_
  split
  · split <;> infer_instance
  · infer_instance

end Literals

end Reader

end Localization.Script
