import Localization.Proofs.Script.Token
import Mathlib.Logic.Relation

/-! Escape sequences are replaced in a text that is edited where it stands: the first one that is
left is decoded, its characters give way to what they stand for, and the search goes on behind that.
Main statement: this ends on every text, with what the tokens of the text stand for, or with the
first of them that is malformed. -/

namespace Localization.Script

/-! Surrogates that are joined. -/

def CodePoint.IsHigh (p : CodePoint) : Prop := 0xD800 ≤ p.toNat ∧ p.toNat < 0xDC00

def CodePoint.IsLow (p : CodePoint) : Prop := 0xDC00 ≤ p.toNat ∧ p.toNat < 0xE000

theorem CodePoint.isHigh_iff {p : CodePoint} :
    CodePoint.IsHigh p ↔ ∃ h : Fin 2048, p = .surrogate h ∧ h.val < 0x400 := by
  constructor
  · rintro ⟨hleast, hmost⟩
    obtain ⟨n, hn⟩ := Nat.exists_eq_add_of_le hleast
    exact ⟨⟨n, by omega⟩, CodePoint.eq_surrogate (by omega) hn, by dsimp only; omega⟩
  · rintro ⟨h, rfl, hh⟩
    simp only [CodePoint.IsHigh, CodePoint.toNat]
    omega

theorem CodePoint.isLow_iff {p : CodePoint} :
    CodePoint.IsLow p ↔ ∃ l : Fin 2048, p = .surrogate l ∧ 0x400 ≤ l.val := by
  constructor
  · rintro ⟨hleast, hmost⟩
    obtain ⟨n, hn⟩ := Nat.exists_eq_add_of_le (Nat.le_of_add_right_le (k := 0x400) hleast)
    exact ⟨⟨n, by omega⟩, CodePoint.eq_surrogate (by omega) hn, by dsimp only; omega⟩
  · rintro ⟨l, rfl, hl⟩
    simp only [CodePoint.IsLow, CodePoint.toNat]
    omega

/-- The second text is the first one with the character that they encode in place of each high
surrogate and the low one directly behind it, from left to right. -/
inductive Paired : Text → Text → Prop
  | nil : Paired [] []
  | pair {high low : CodePoint} {c : Char} {t u : Text} (hhigh : CodePoint.IsHigh high)
    (hlow : CodePoint.IsLow low) (hunits : (CodePoint.char c).units16 = [high.toNat, low.toNat])
    (hrest : Paired t u) : Paired (high :: low :: t) (.char c :: u)
  | single {p : CodePoint} {t u : Text}
    (h : CodePoint.IsHigh p → ∀ q ∈ t.head?, ¬ CodePoint.IsLow q) (hrest : Paired t u) :
    Paired (p :: t) (p :: u)

/-- Two surrogates encode the character that has them as its code units. -/
theorem units16_joined {h l : Nat} (hh : h < 0x400) (hl : 0x400 ≤ l) (hl' : l < 0x800) :
    (CodePoint.char (Char.ofNat (0x10000 + 0x400 * h + (l - 0x400)))).units16 =
      [0xD800 + h, 0xD800 + l] := by
  generalize hn : 0x10000 + 0x400 * h + (l - 0x400) = n
  have hvalid : n.isValidChar := by
    unfold Nat.isValidChar
    omega
  have hvalue : (Char.ofNat n).toNat = n := by
    rw [Char.ofNat, dif_pos hvalid]
    exact UInt32.toNat_ofNatLT ..
  rw [CodePoint.units16, hvalue, if_neg (by omega)]
  simp only [List.cons.injEq, and_true]
  omega

theorem paired_joinSurrogates (t : Text) : Paired t (Text.joinSurrogates t) := by
  fun_induction Text.joinSurrogates t with
  | case1 h l t hpair ih =>
    exact .pair (CodePoint.isHigh_iff.mpr ⟨h, rfl, hpair.1⟩)
      (CodePoint.isLow_iff.mpr ⟨l, rfl, hpair.2⟩) (units16_joined hpair.1 hpair.2 l.isLt) ih
  | case2 h l t hpair ih =>
    refine .single (fun hhigh q hq hlow => hpair ?_) ih
    obtain rfl := Option.some.inj hq
    obtain ⟨h', heq, hh⟩ := CodePoint.isHigh_iff.mp hhigh
    obtain ⟨l', heq', hl⟩ := CodePoint.isLow_iff.mp hlow
    cases heq
    cases heq'
    exact ⟨hh, hl⟩
  | case3 p t hp ih =>
    refine .single (fun hhigh q hq hlow => ?_) ih
    obtain ⟨h, rfl, -⟩ := CodePoint.isHigh_iff.mp hhigh
    obtain ⟨l, rfl, -⟩ := CodePoint.isLow_iff.mp hlow
    obtain ⟨t, rfl⟩ := List.head?_eq_some_iff.mp hq
    exact hp h l t rfl rfl
  | case4 => exact .nil

/-- A code point that is not half of a pair stays. -/
theorem joinSurrogates_single {p : CodePoint} {t : Text}
    (h : CodePoint.IsHigh p → ∀ q ∈ t.head?, ¬ CodePoint.IsLow q) :
    Text.joinSurrogates (p :: t) = p :: Text.joinSurrogates t := by
  generalize hs : p :: t = s
  fun_cases Text.joinSurrogates s with
  | case1 m n s hpair =>
    obtain ⟨rfl, rfl⟩ := List.cons.inj hs
    exact absurd (CodePoint.isLow_iff.mpr ⟨n, rfl, hpair.2⟩)
      (h (CodePoint.isHigh_iff.mpr ⟨m, rfl, hpair.1⟩) _ rfl)
  | case2 | case3 =>
    obtain ⟨rfl, rfl⟩ := List.cons.inj hs
    rfl
  | case4 => cases hs

/-- There is one such text. -/
theorem Paired.joinSurrogates_eq {t u : Text} (h : Paired t u) : Text.joinSurrogates t = u := by
  induction h with
  | nil => rfl
  | @pair high low c t u hhigh hlow hunits _ ih =>
    obtain ⟨high', low', hh, hl, hjoin⟩ := joinSurrogates_units hunits
    obtain rfl := CodePoint.toNat_injective (CodePoint.ofNat?_eq_some_iff.mp hh)
    obtain rfl := CodePoint.toNat_injective (CodePoint.ofNat?_eq_some_iff.mp hl)
    rw [hjoin, ih]
  | single h _ ih => rw [joinSurrogates_single h, ih]

theorem joinSurrogates_eq_iff {t u : Text} : Text.joinSurrogates t = u ↔ Paired t u :=
  ⟨fun h => h ▸ paired_joinSurrogates t, Paired.joinSurrogates_eq⟩

/-! The text that is edited. -/

/-- A text, and the place from which on the next escape sequence is sought. -/
structure Edit where
  text : Text
  place : Nat

namespace Edit

/-- The next backslash stands at `j`. -/
structure Finds (e : Edit) (j : Nat) : Prop where
  le : e.place ≤ j
  here : e.text[j]? = some (.char '\\')
  first : ∀ k, e.place ≤ k → k < j → e.text[k]? ≠ some (.char '\\')

/-- The next escape sequence begins at `j`, with these characters behind its backslash. -/
structure Next (e : Edit) (j : Nat) (after : List Char) : Prop where
  finds : e.Finds j
  behind : e.text.drop (j + 1) = Text.ofChars after
  nonempty : after ≠ []

/-- An escape sequence gives way to what it stands for, and is not looked at again. -/
inductive Round : Edit → Edit → Prop
  | replace {e : Edit} {j used : Nat} {after : List Char} {p : CodePoint} (hnext : e.Next j after)
    (hread : escapeAfter after = .ok (p, used)) :
    Round e ⟨e.text.take j ++ p :: e.text.drop (j + 1 + used), j + 1⟩

/-- No backslash is left with a character behind it, or the next escape sequence is malformed. -/
inductive Ends : Edit → Except EscapeError Text → Prop
  | done {e : Edit} (h : ∀ j, e.Finds j → j + 1 = e.text.length) : Ends e (.ok e.text)
  | refused {e : Edit} {j : Nat} {after : List Char} {error : EscapeError} (hnext : e.Next j after)
    (hread : escapeAfter after = .error error) : Ends e (.error error)

/-- What becomes of a text once no round is left. -/
def Yields (cs : List Char) (r : Except EscapeError Text) : Prop :=
  ∃ e, Relation.ReflTransGen Round ⟨.ofChars cs, 0⟩ e ∧ e.Ends r

variable {e f g : Edit} {i j : Nat} {after before : List Char} {r s : Except EscapeError Text}

/-- How much of the text is left to search. -/
def remaining (e : Edit) : Nat := e.text.length - e.place

theorem Finds.lt (h : e.Finds j) : j < e.text.length :=
  (List.getElem?_eq_some_iff.mp h.here).1

theorem Round.remaining_lt (h : Round e f) : f.remaining < e.remaining := by
  cases h with
  | @replace j used after p hnext hread =>
    have hlt := hnext.finds.lt
    have hle := hnext.finds.le
    simp only [remaining, List.length_append, List.length_take, List.length_cons, List.length_drop]
    omega

/-- No text is edited without end. -/
theorem wellFounded_round : WellFounded fun after before => Round before after :=
  Subrelation.wf Round.remaining_lt (measure remaining).wf

/-! A round leaves no choice. -/

theorem Finds.unique (hi : e.Finds i) (hj : e.Finds j) : i = j := by
  rcases Nat.lt_trichotomy i j with hlt | heq | hgt
  · exact absurd hi.here (hj.first i hi.le hlt)
  · exact heq
  · exact absurd hj.here (hi.first j hj.le hgt)

theorem Next.unique (hi : e.Next i before) (hj : e.Next j after) : i = j ∧ before = after := by
  obtain rfl := hi.finds.unique hj.finds
  exact ⟨rfl, Text.ofChars_injective (hi.behind.symm.trans hj.behind)⟩

theorem Round.unique (hf : Round e f) (hg : Round e g) : f = g := by
  obtain ⟨hnext, hread⟩ := hf
  obtain ⟨hnext', hread'⟩ := hg
  obtain ⟨rfl, rfl⟩ := hnext.unique hnext'
  obtain ⟨rfl, rfl⟩ := Prod.mk.inj (Except.ok.inj (hread.symm.trans hread'))
  rfl

theorem Next.succ_ne (h : e.Next j after) : j + 1 ≠ e.text.length := by
  intro hlast
  have hbehind := h.behind
  rw [hlast, List.drop_length] at hbehind
  exact h.nonempty (Text.ofChars_injective hbehind.symm)

theorem Ends.not_round (h : e.Ends r) : ¬ Round e f := by
  rintro ⟨hnext, hread⟩
  cases h with
  | done hnone => exact hnext.succ_ne (hnone _ hnext.finds)
  | refused hnext' hread' =>
    obtain ⟨rfl, rfl⟩ := hnext.unique hnext'
    rw [hread] at hread'
    cases hread'

theorem Ends.unique (hr : e.Ends r) (hs : e.Ends s) : r = s := by
  cases hr with
  | done hnone =>
    cases hs with
    | done => rfl
    | refused hnext => exact absurd (hnone _ hnext.finds) hnext.succ_ne
  | refused hnext hread =>
    cases hs with
    | done hnone => exact absurd (hnone _ hnext.finds) hnext.succ_ne
    | refused hnext' hread' =>
      obtain ⟨rfl, rfl⟩ := hnext.unique hnext'
      rw [Except.error.inj (hread.symm.trans hread')]

theorem Yields.unique {cs : List Char} (hr : Yields cs r) (hs : Yields cs s) : r = s := by
  obtain ⟨e, hrun, hends⟩ := hr
  obtain ⟨f, hrun', hends'⟩ := hs
  have hstuck {e f : Edit} {r : Except EscapeError Text} (hends : e.Ends r)
      (hrun : Relation.ReflTransGen Round e f) : e = f := by
    rcases hrun.cases_head with heq | ⟨g, hround, -⟩
    · exact heq
    · exact absurd hround hends.not_round
  obtain rfl : e = f := by
    have hunique : Relator.RightUnique Round := fun _ _ _ => Round.unique
    rcases hrun.total_of_right_unique hunique hrun' with hfurther | hfurther
    · exact hstuck hends hfurther
    · exact (hstuck hends' hfurther).symm
  exact hends.unique hends'

/-! What the rounds do to a text. -/

theorem getElem?_plain_ne (done rest : Text) {plain : List Char} (hplain : '\\' ∉ plain) {k : Nat}
    (hle : done.length ≤ k) (hlt : k < done.length + plain.length) :
    (done ++ (.ofChars plain ++ rest))[k]? ≠ some (.char '\\') := by
  rw [List.getElem?_append_right hle, List.getElem?_append_left (by simp [Text.ofChars]; omega)]
  intro h
  have hmem := List.mem_of_getElem? h
  simp [Text.ofChars, hplain] at hmem

/-- There is no backslash to be found in characters that hold none. -/
theorem not_finds (done : Text) {plain : List Char} (hplain : '\\' ∉ plain) (j : Nat) :
    ¬ Finds ⟨done ++ .ofChars plain, done.length⟩ j := by
  intro h
  have hlt : j < done.length + plain.length := by simpa [Text.ofChars] using h.lt
  have hne := getElem?_plain_ne done [] hplain h.le hlt
  rw [List.append_nil] at hne
  exact hne h.here

/-- Behind characters that hold none, the first backslash is found. -/
theorem finds_first (done rest : Text) {plain : List Char} (hplain : '\\' ∉ plain) :
    Finds ⟨done ++ .ofChars plain ++ .char '\\' :: rest, done.length⟩
      (done ++ .ofChars plain).length where
  le := by simp
  here := by simp
  first k hle hlt := by
    rw [List.append_assoc]
    exact getElem?_plain_ne done _ hplain hle (by simpa [Text.ofChars] using hlt)

theorem drop_behind (front rest : Text) (p : CodePoint) :
    (front ++ p :: rest).drop (front.length + 1) = rest := by
  rw [← List.drop_drop, List.drop_left]
  rfl

theorem next_first (done : Text) {plain after : List Char} (hplain : '\\' ∉ plain)
    (hafter : after ≠ []) :
    Next ⟨done ++ .ofChars plain ++ .char '\\' :: Text.ofChars after, done.length⟩
      (done ++ .ofChars plain).length after where
  finds := finds_first done _ hplain
  behind := drop_behind ..
  nonempty := hafter

/-- A round deals with the characters before a backslash and with those of its escape sequence. -/
theorem round_first (done : Text) {plain after : List Char} {p : CodePoint} {used : Nat}
    (hplain : '\\' ∉ plain) (hafter : after ≠ []) (hread : escapeAfter after = .ok (p, used)) :
    Round ⟨done ++ .ofChars plain ++ .char '\\' :: Text.ofChars after, done.length⟩
      ⟨done ++ .ofChars plain ++ [p] ++ Text.ofChars (after.drop used),
        (done ++ .ofChars plain ++ [p]).length⟩ := by
  have hround := Round.replace (next_first done hplain hafter) hread
  generalize done ++ Text.ofChars plain = front at hround
  have hskip : (front ++ .char '\\' :: Text.ofChars after).drop (front.length + 1 + used) =
      Text.ofChars (after.drop used) := by
    rw [← List.drop_drop, drop_behind]
    exact List.map_drop.symm
  simpa [hskip] using hround

/-- What the rounds keep: the text is one that has been dealt with, up to the place, and characters
behind it from which one pass comes to `r`. -/
def Pending (r : Except EscapeError Text) (e : Edit) : Prop :=
  ∃ done rest, e = ⟨done ++ .ofChars rest, done.length⟩ ∧
    (unescapeFrom 0 rest).map (done ++ ·) = r

theorem pending_start (cs : List Char) : Pending (unescapeFrom 0 cs) ⟨.ofChars cs, 0⟩ := by
  refine ⟨[], cs, rfl, ?_⟩
  cases unescapeFrom 0 cs <;> rfl

/-- Either nothing is left to do, or a round keeps what becomes of the text. -/
theorem Pending.step (h : e.Pending r) : e.Ends r ∨ ∃ f, Round e f ∧ f.Pending r := by
  obtain ⟨done, rest, rfl, rfl⟩ := h
  obtain ⟨plain, rest, rfl, hplain, hrest⟩ := exists_run (· ≠ '\\') rest
  have hplain : '\\' ∉ plain := fun hmem => by simpa using hplain _ hmem
  rw [unescapeFrom_plain hplain, Text.ofChars_append, ← List.append_assoc]
  cases rest with
  | nil =>
    left
    have hdone := Ends.done (e := ⟨done ++ .ofChars plain, done.length⟩)
      fun j hj => absurd hj (not_finds done hplain j)
    simpa [unescapeFrom, Except.map] using hdone
  | cons c after =>
    obtain rfl : c = '\\' := by simpa using hrest
    rw [Text.ofChars_cons, unescapeFrom, if_pos rfl]
    by_cases hafter : after = []
    · subst hafter
      left
      have hdone := Ends.done
        (e := ⟨done ++ .ofChars plain ++ [.char '\\'], done.length⟩) fun j hj => by
          obtain rfl := hj.unique (finds_first done [] hplain)
          simp only [List.length_append, List.length_singleton]
      simpa [unescapeFrom, escapeAfter, Except.map] using hdone
    have hnext := next_first done hplain hafter
    cases hread : escapeAfter after with
    | error error => exact .inl (.refused hnext hread)
    | ok result =>
      obtain ⟨p, used⟩ := result
      refine .inr ⟨_, round_first done hplain hafter hread, _, _, rfl, ?_⟩
      dsimp only
      rw [unescapeFrom_drop used]
      cases unescapeFrom 0 (after.drop used) <;> simp [Except.map]

theorem Pending.run (h : e.Pending r) : ∃ f, Relation.ReflTransGen Round e f ∧ f.Ends r := by
  induction e using wellFounded_round.induction with
  | _ e ih =>
    rcases h.step with hends | ⟨f, hround, hf⟩
    · exact ⟨e, .refl, hends⟩
    · obtain ⟨g, hrun, hends⟩ := ih f hround hf
      exact ⟨g, .head hround hrun, hends⟩

/-- Editing a text comes to what one pass over it comes to, and to nothing else. -/
theorem yields_iff {cs : List Char} : Yields cs r ↔ r = unescapeFrom 0 cs := by
  have hyields : Yields cs (unescapeFrom 0 cs) := (pending_start cs).run
  constructor
  · intro h
    exact h.unique hyields
  · rintro rfl
    exact hyields

end Edit

/-! What a text denotes. -/

theorem unescape_eq_error_iff {cs : List Char} {e : EscapeError} :
    unescape cs = .error e ↔ unescapeFrom 0 cs = .error e := by
  unfold unescape
  cases unescapeFrom 0 cs <;> simp [Except.map]

theorem unescape_eq_ok_iff {cs : List Char} {text : Text} :
    unescape cs = .ok text ↔ ∃ values, unescapeFrom 0 cs = .ok values ∧ Paired values text := by
  unfold unescape
  cases unescapeFrom 0 cs <;> simp [Except.map, joinSurrogates_eq_iff]

/-- Replacing escape sequences where they stand ends on every text, and comes to what one pass over
its tokens comes to. It is refused exactly if a token is malformed, with the first of these as the
reason; otherwise each token becomes the code point that it stands for, and surrogates are joined. -/
theorem unescape_tokens (cs : List Char) :
    WellFounded (fun after before => Edit.Round before after) ∧
    (∃ r, Edit.Yields cs r ∧ (∀ s, Edit.Yields cs s → s = r) ∧
      unescape cs = r.map Text.joinSurrogates) ∧
    ∃ ts, (∀ us, Split cs us ↔ us = ts) ∧
      ((∃ e, unescape cs = .error e) ↔ ∃ t ∈ ts, t.Malformed) ∧
      (∀ e, unescape cs = .error e ↔ ∃ before t after, ts = before ++ t :: after ∧
        (∀ u ∈ before, ¬ u.Malformed) ∧ t.Malformed ∧ e = t.fault ∧
          t.shown <:+: e.message.toList) ∧
      ∀ text, unescape cs = .ok text ↔
        ∃ values, List.Forall₂ Token.Stands ts values ∧ Paired values text := by
  obtain ⟨ts, hts⟩ := Split.exists_split cs
  refine ⟨Edit.wellFounded_round, ⟨_, Edit.yields_iff.mpr rfl, fun s hs => Edit.yields_iff.mp hs,
    rfl⟩, ts, fun us => ⟨fun hus => hts.unique hus, fun hus => hus ▸ hts⟩,
    ?_, fun e => ?_, fun text => ?_⟩
  · simp only [unescape_eq_error_iff, hts.exists_error_iff]
  · rw [unescape_eq_error_iff, hts.read_eq_error_iff]
    constructor
    · rintro ⟨before, t, after, heq, hbefore, hbad, rfl⟩
      exact ⟨before, t, after, heq, hbefore, hbad, rfl, t.shown_message⟩
    · rintro ⟨before, t, after, heq, hbefore, hbad, he, -⟩
      exact ⟨before, t, after, heq, hbefore, hbad, he⟩
  · simp only [unescape_eq_ok_iff, hts.read_eq_ok_iff]

end Localization.Script
