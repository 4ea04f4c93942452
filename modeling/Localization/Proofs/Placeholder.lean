import Localization.Placeholder
import Localization.Proofs.Runs

/-! What placeholders look like at the start of a text, and the pieces of a text one code point or
one placeholder at a time. -/

namespace Localization.Placeholder

/-- A text begins with a placeholder of a length: a command link up to the next blank, an icon, or
braces that end with the last closing brace before the next blank. -/
inductive Begins : Text → Nat → Prop
  | command {run rest : Text} (nonempty : run ≠ []) (solid : ∀ p ∈ run, p.isBlank = false)
    (ends : ∀ p ∈ rest.head?, p.isBlank = true) :
    Begins (Text.ofString "(command:" ++ (run ++ rest)) (run.length + 9)
  | icon {name rest : Text} (nonempty : name ≠ []) (known : ∀ p ∈ name, isIconChar p = true) :
    Begins (.char '$' :: .char '(' :: (name ++ .char ')' :: rest)) (name.length + 3)
  | brace {body tail rest : Text} (nonempty : body ≠ []) (solid : ∀ p ∈ body, p.isBlank = false)
    (solidTail : ∀ p ∈ tail, p.isBlank = false) (last : CodePoint.char '}' ∉ tail)
    (ends : ∀ p ∈ rest.head?, p.isBlank = true) :
    Begins (.char '{' :: (body ++ .char '}' :: (tail ++ rest))) (body.length + 2)

/-- A run of code points that are not blank, with its length. -/
theorem runLength_run {run rest : Text} (solid : ∀ p ∈ run, p.isBlank = false)
    (ends : ∀ p ∈ rest.head?, p.isBlank = true) : runLength (run ++ rest) = run.length := by
  rw [runLength, takeWhile_run (by simpa using solid) (by simpa using ends)]

theorem take_run {run rest : Text} (solid : ∀ p ∈ run, p.isBlank = false)
    (ends : ∀ p ∈ rest.head?, p.isBlank = true) :
    (run ++ rest).take (runLength (run ++ rest)) = run := by
  rw [runLength_run solid ends, List.take_left]

theorem exists_solid_run (t : Text) :
    ∃ run rest, t = run ++ rest ∧ (∀ p ∈ run, p.isBlank = false) ∧
      ∀ p ∈ rest.head?, p.isBlank = true := by
  obtain ⟨run, rest, rfl, hrun, hrest⟩ := exists_run (fun p : CodePoint => !p.isBlank) t
  exact ⟨run, rest, rfl, by simpa using hrun, by simpa using hrest⟩

theorem commandLength?_eq_some_iff {t : Text} {n : Nat} :
    commandLength? t = some n ↔ ∃ run rest, t = Text.ofString "(command:" ++ (run ++ rest) ∧
      run ≠ [] ∧ (∀ p ∈ run, p.isBlank = false) ∧ (∀ p ∈ rest.head?, p.isBlank = true) ∧
      n = run.length + 9 := by
  constructor
  · intro h
    unfold commandLength? at h
    split at h
    · rename_i after hafter
      obtain ⟨run, rest, rfl, solid, ends⟩ := exists_solid_run after
      rw [stripPrefix?_eq_some_iff] at hafter
      rw [runLength_run solid ends] at h
      split at h
      · cases h
      · rename_i hne
        refine ⟨run, rest, hafter, by rintro rfl; exact hne rfl, solid, ends, ?_⟩
        simp [hafter, Text.ofString, Text.ofChars] at h
        omega
    · cases h
  · rintro ⟨run, rest, rfl, hne, solid, ends, rfl⟩
    have hstrip := stripPrefix?_eq_some_iff.mpr
      (rfl : Text.ofString "(command:" ++ (run ++ rest) = _)
    have hpos : run.length ≠ 0 := by simpa using hne
    simp only [commandLength?, hstrip, runLength_run solid ends, hpos, if_false]
    simp [Text.ofString, Text.ofChars]
    omega

theorem iconLength?_eq_some_iff {t : Text} {n : Nat} :
    iconLength? t = some n ↔ ∃ name rest,
      t = .char '$' :: .char '(' :: (name ++ .char ')' :: rest) ∧
      name ≠ [] ∧ (∀ p ∈ name, isIconChar p = true) ∧ n = name.length + 3 := by
  have hparen : isIconChar (.char ')') = false := by decide
  constructor
  · intro h
    unfold iconLength? at h
    split at h
    · obtain ⟨name, rest, rfl, hne, known, rfl⟩ := (closedLength_eq_some_iff hparen).mp h
      exact ⟨name, rest, rfl, hne, known, rfl⟩
    · cases h
  · rintro ⟨name, rest, rfl, hne, known, rfl⟩
    exact (closedLength_eq_some_iff hparen).mpr ⟨name, rest, rfl, hne, known, rfl⟩

/-- The last closing brace, with what stands before it and after it. -/
theorem lastBrace?_eq_some_iff {t : Text} {n : Nat} :
    lastBrace? t = some n ↔ ∃ body tail, t = body ++ .char '}' :: tail ∧ body ≠ [] ∧
      CodePoint.char '}' ∉ tail ∧ n = body.length := by
  have hbrace : (!(CodePoint.char '}').isChar '}') = false := by decide
  constructor
  · intro h
    obtain ⟨tail, front, ht, htail, hfront⟩ :=
      exists_run (fun p : CodePoint => !p.isChar '}') t.reverse
    rw [lastBrace?, ht, dropWhile_run htail hfront] at h
    split at h
    · rename_i k hk
      obtain ⟨p, front, rfl⟩ := List.exists_cons_of_length_eq_add_one hk
      have hp : p = .char '}' := by
        simpa [CodePoint.isChar] using hfront p (by simp)
      refine ⟨front.reverse, tail.reverse, ?_, ?_, ?_, ?_⟩
      · rw [← List.reverse_reverse t, ht, hp]; simp
      · rintro he
        simp [List.reverse_eq_nil_iff.mp he] at hk
      · intro hm
        have := htail _ (List.mem_reverse.mp hm)
        simp [CodePoint.isChar] at this
      · simp at hk h ⊢; omega
    · cases h
  · rintro ⟨body, tail, rfl, hne, hlast, rfl⟩
    have htail : ∀ p ∈ tail.reverse, (!p.isChar '}') = true := by
      intro p hp
      have : p ≠ .char '}' := by rintro rfl; exact hlast (List.mem_reverse.mp hp)
      simpa [CodePoint.isChar] using this
    have hrev : (body ++ .char '}' :: tail).reverse =
        tail.reverse ++ .char '}' :: body.reverse := by
      simp
    rw [lastBrace?, hrev, dropWhile_run htail (by simpa using hbrace)]
    obtain ⟨k, hk⟩ : ∃ k, body.length = k + 1 :=
      Nat.exists_eq_add_one.mpr (List.length_pos_iff.mpr hne)
    simp [hk]

theorem braceLength?_eq_some_iff {t : Text} {n : Nat} :
    braceLength? t = some n ↔ ∃ body tail rest,
      t = .char '{' :: (body ++ .char '}' :: (tail ++ rest)) ∧ body ≠ [] ∧
      (∀ p ∈ body, p.isBlank = false) ∧ (∀ p ∈ tail, p.isBlank = false) ∧
      CodePoint.char '}' ∉ tail ∧ (∀ p ∈ rest.head?, p.isBlank = true) ∧ n = body.length + 2 := by
  constructor
  · intro h
    unfold braceLength? at h
    split at h
    · rename_i after
      obtain ⟨run, rest, rfl, solid, ends⟩ := exists_solid_run after
      obtain ⟨k, hk, rfl⟩ := Option.map_eq_some_iff.mp h
      rw [take_run solid ends] at hk
      obtain ⟨body, tail, rfl, hne, hlast, rfl⟩ := lastBrace?_eq_some_iff.mp hk
      refine ⟨body, tail, rest, by simp, hne, fun p hp => solid p (by simp [hp]),
        fun p hp => solid p (by simp [hp]), hlast, ends, rfl⟩
    · cases h
  · rintro ⟨body, tail, rest, rfl, hne, solid, solidTail, hlast, ends, rfl⟩
    have hsolid : ∀ p ∈ body ++ .char '}' :: tail, p.isBlank = false := by
      intro p hp
      simp only [List.mem_append, List.mem_cons] at hp
      rcases hp with hp | rfl | hp
      · exact solid p hp
      · decide
      · exact solidTail p hp
    have hsplit : body ++ .char '}' :: (tail ++ rest) =
        (body ++ .char '}' :: tail) ++ rest := by simp
    rw [hsplit, braceLength?, take_run hsolid ends,
      lastBrace?_eq_some_iff.mpr ⟨body, tail, rfl, hne, hlast, rfl⟩]
    rfl

/-- The length of a placeholder is that of the one that a text begins with. -/
theorem length?_eq_some_iff {t : Text} {n : Nat} : length? t = some n ↔ Begins t n := by
  constructor
  · intro h
    rw [length?, Option.or_eq_some_iff, Option.or_eq_some_iff] at h
    rcases h with h | ⟨-, h | ⟨-, h⟩⟩
    · obtain ⟨run, rest, rfl, hne, solid, ends, rfl⟩ := commandLength?_eq_some_iff.mp h
      exact .command hne solid ends
    · obtain ⟨name, rest, rfl, hne, known, rfl⟩ := iconLength?_eq_some_iff.mp h
      exact .icon hne known
    · obtain ⟨body, tail, rest, rfl, hne, solid, solidTail, last, ends, rfl⟩ :=
        braceLength?_eq_some_iff.mp h
      exact .brace hne solid solidTail last ends
  · intro h
    cases h with
    | command hne solid ends =>
      rw [length?, commandLength?_eq_some_iff.mpr ⟨_, _, rfl, hne, solid, ends, rfl⟩,
        Option.some_or]
    | icon hne known =>
      rw [length?, iconLength?_eq_some_iff.mpr ⟨_, _, rfl, hne, known, rfl⟩]
      rfl
    | brace hne solid solidTail last ends =>
      rw [length?, braceLength?_eq_some_iff.mpr
        ⟨_, _, _, rfl, hne, solid, solidTail, last, ends, rfl⟩]
      rfl

/-- Whether a placeholder can begin with a code point. -/
def isOpening (p : CodePoint) : Bool := p.isChar '(' || p.isChar '$' || p.isChar '{'

theorem Begins.head {t : Text} {n : Nat} (h : Begins t n) :
    ∃ p rest, t = p :: rest ∧ isOpening p = true := by
  cases h with
  | command => exact ⟨.char '(', _, rfl, by decide⟩
  | icon => exact ⟨.char '$', _, rfl, by decide⟩
  | brace => exact ⟨.char '{', _, rfl, by decide⟩

theorem Begins.le_length {t : Text} {n : Nat} (h : Begins t n) : n ≤ t.length := by
  cases h <;> simp [Text.ofString, Text.ofChars]

theorem Begins.pos {t : Text} {n : Nat} (h : Begins t n) : 0 < n := by
  cases h <;> omega

/-- The last closing brace of a text. -/
theorem exists_last_brace {t : Text} (h : CodePoint.char '}' ∈ t) :
    ∃ body tail, t = body ++ .char '}' :: tail ∧ CodePoint.char '}' ∉ tail := by
  obtain ⟨tail, body, hrev, hlast⟩ := List.eq_append_cons_of_mem (List.mem_reverse.mpr h)
  refine ⟨body.reverse, tail.reverse, ?_, by simpa using hlast⟩
  rw [← List.reverse_reverse t, hrev]
  simp

/-- A closing brace after something else, before the next blank, ends a placeholder. -/
theorem exists_begins_brace {t : Text}
    (h : CodePoint.char '}' ∈ (t.takeWhile fun p => !p.isBlank).tail) :
    ∃ n, Begins (.char '{' :: t) n := by
  obtain ⟨run, rest, rfl, solid, ends⟩ := exists_solid_run t
  rw [takeWhile_run (by simpa using solid) (by simpa using ends)] at h
  obtain ⟨body, tail, rfl, hlast⟩ := exists_last_brace (List.mem_of_mem_tail h)
  have hne : body ≠ [] := by
    rintro rfl
    exact hlast h
  rw [List.append_assoc, List.cons_append]
  exact ⟨_, .brace hne (fun p hp => solid p (by simp [hp])) (fun p hp => solid p (by simp [hp]))
    hlast ends⟩

theorem length?_eq_none {p : CodePoint} (t : Text) (h : isOpening p = false) :
    length? (p :: t) = none := by
  rw [Option.eq_none_iff_forall_ne_some]
  intro n hn
  obtain ⟨q, rest, ht, hq⟩ := (length?_eq_some_iff.mp hn).head
  obtain ⟨rfl, rfl⟩ := List.cons.inj ht
  rw [h] at hq
  cases hq

/-- What stands before the first placeholder, the placeholder and what follows it make up a text. -/
theorem split?_eq_some {t before found rest : Text} (h : split? t = some (before, found, rest)) :
    t = before ++ found ++ rest ∧ found ≠ [] := by
  induction t generalizing before with
  | nil => cases h
  | cons p t ih =>
    rw [split?] at h
    split at h
    · rename_i n hn
      obtain ⟨rfl, rfl, rfl⟩ := by simpa using h
      have := (length?_eq_some_iff.mp hn).pos
      exact ⟨by simp, by simp; omega⟩
    · obtain ⟨⟨b, f, r⟩, hs, he⟩ := Option.map_eq_some_iff.mp h
      simp only [Prod.mk.injEq] at he
      obtain ⟨rfl, rfl, rfl⟩ := he
      obtain ⟨rfl, hne⟩ := ih hs
      exact ⟨rfl, hne⟩

/-- A bound above the length of a text plays no part. -/
theorem piecesFrom_eq {m n : Nat} {t : Text} (hm : t.length ≤ m) (hn : t.length ≤ n) :
    piecesFrom m t = piecesFrom n t := by
  induction m generalizing n t with
  | zero =>
    obtain rfl : t = [] := List.length_eq_zero_iff.mp (by omega)
    cases n <;> rfl
  | succ m ih =>
    cases n with
    | zero =>
      obtain rfl : t = [] := List.length_eq_zero_iff.mp (by omega)
      rfl
    | succ n =>
      rw [piecesFrom, piecesFrom]
      cases hs : split? t with
      | none => rfl
      | some parts =>
        obtain ⟨before, found, rest⟩ := parts
        obtain ⟨rfl, hne⟩ := split?_eq_some hs
        have hpos : 0 < found.length := List.length_pos_iff.mpr hne
        simp only [List.length_append] at hm hn
        simp only
        rw [ih (n := n) (by omega) (by omega)]

@[simp] theorem pieces_nil : pieces [] = [.gap []] := rfl

/-- Where no placeholder begins, the first code point belongs to a gap. -/
theorem pieces_cons_gap {p : CodePoint} {t : Text} (h : length? (p :: t) = none) :
    ∃ g ps, pieces t = .gap g :: ps ∧ pieces (p :: t) = .gap (p :: g) :: ps := by
  rw [pieces, pieces, piecesFrom_eq (m := t.length) (n := t.length + 1) le_rfl (by omega)]
  simp only [List.length_cons, piecesFrom, split?, h]
  cases split? t with
  | none => exact ⟨t, [], rfl, rfl⟩
  | some parts =>
    obtain ⟨before, found, rest⟩ := parts
    exact ⟨before, _, rfl, by simp⟩

/-- Code points with which no placeholder begins join the gap after them. -/
theorem pieces_append_gap {run t g : Text} {ps : List Piece}
    (hrun : ∀ p ∈ run, isOpening p = false) (ht : pieces t = .gap g :: ps) :
    pieces (run ++ t) = .gap (run ++ g) :: ps := by
  induction run with
  | nil => exact ht
  | cons p run ih =>
    have ih := ih fun q hq => hrun q (List.mem_cons_of_mem _ hq)
    obtain ⟨g', ps', hrest, hp⟩ := pieces_cons_gap (length?_eq_none (run ++ t) (hrun p (by simp)))
    rw [ih] at hrest
    injection hrest with hg hps
    injection hg with hg
    rw [List.cons_append, hp, ← hg, ← hps]
    rfl

/-- A placeholder at the start of a text comes after an empty gap. -/
theorem pieces_placeholder {t : Text} {n : Nat} (h : length? t = some n) :
    pieces t = .gap [] :: .placeholder (t.take n) :: pieces (t.drop n) := by
  have hpos := (length?_eq_some_iff.mp h).pos
  obtain ⟨p, rest, rfl, -⟩ := (length?_eq_some_iff.mp h).head
  rw [pieces, pieces, List.length_cons, piecesFrom, split?, h]
  dsimp only
  have hle : ((p :: rest).drop n).length ≤ rest.length := by
    simp only [List.length_drop, List.length_cons]
    omega
  rw [piecesFrom_eq hle le_rfl]

/-- Induction along a text: one code point of a gap, or one placeholder, at a time. -/
theorem pieces_induction {motive : Text → Prop} (t : Text) (nil : motive [])
    (gap : ∀ p t, length? (p :: t) = none → motive t → motive (p :: t))
    (placeholder : ∀ t n, length? t = some n → motive (t.drop n) → motive t) : motive t := by
  induction hk : t.length using Nat.strong_induction_on generalizing t with
  | _ k ih =>
  subst hk
  cases t with
  | nil => exact nil
  | cons p t =>
    cases hl : length? (p :: t) with
    | none => exact gap p t hl (ih _ (by simp) t rfl)
    | some n =>
      have hpos := (length?_eq_some_iff.mp hl).pos
      exact placeholder _ n hl (ih _ (by simp; omega) _ rfl)

/-- The pieces of a text make up the text. -/
theorem flatMap_pieces (t : Text) : (pieces t).flatMap Piece.text = t := by
  induction t using pieces_induction with
  | nil => rfl
  | gap p t h ih =>
    obtain ⟨g, ps, ht, hpt⟩ := pieces_cons_gap h
    rw [ht] at ih
    rw [hpt]
    simpa [Piece.text] using ih
  | placeholder t n h ih =>
    rw [pieces_placeholder h]
    simp only [List.flatMap_cons, Piece.text, List.nil_append, ih, List.take_append_drop]

end Localization.Placeholder
