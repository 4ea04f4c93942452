import Localization.Proofs.Placeholder
import Localization.Proofs.Text
import Localization.Pseudo

/-! Pseudo-localization keeps the placeholders of a message: what it does to the gaps neither makes
nor changes a placeholder. -/

namespace Localization.Pseudo

open Placeholder

/-- Only ASCII letters are replaced, by characters that are not blank and no ASCII characters. -/
theorem accented?_some {c d : Char} (h : accented? c = some d) :
    c.isAlpha = true ∧ 0x80 ≤ d.toNat ∧ isBlankChar d = false := by
  unfold accented? at h
  split at h
  all_goals first | cases h; decide | cases h

theorem alpha_lt {c : Char} (h : c.isAlpha = true) : c.toNat < 0x80 := by
  have hrange := range_of_isAlpha h
  omega

theorem accented?_alpha {c : Char} (h : c.isAlpha = true) : (accented? c).isSome = true := by
  have hascii : ∀ n < 0x80, (Char.ofNat n).isAlpha = true →
      (accented? (Char.ofNat n)).isSome = true := by decide
  have hc := hascii c.toNat (alpha_lt h)
  rw [Char.ofNat_toNat] at hc
  exact hc h

def isLetter : CodePoint → Bool
  | .char c => c.isAlpha
  | .surrogate _ => false

/-- A code point as it can stand for a letter: no ASCII character, and not blank. -/
def IsForm (p : CodePoint) : Prop := ∃ d, p = .char d ∧ 0x80 ≤ d.toNat ∧ isBlankChar d = false

theorem IsForm.ne {p : CodePoint} (h : IsForm p) {c : Char} (hc : c.toNat < 0x80) :
    p ≠ .char c := by
  obtain ⟨d, rfl, hd, -⟩ := h
  rintro ⟨⟩
  omega

theorem IsForm.isBlank {p : CodePoint} (h : IsForm p) : p.isBlank = false := by
  obtain ⟨d, rfl, -, hd⟩ := h
  exact hd

theorem IsForm.isOpening {p : CodePoint} (h : IsForm p) : isOpening p = false := by
  have h1 := h.ne (c := '(') (by decide)
  have h2 := h.ne (c := '$') (by decide)
  have h3 := h.ne (c := '{') (by decide)
  simp [Placeholder.isOpening, CodePoint.isChar, h1, h2, h3]

theorem IsForm.isLetter {p : CodePoint} (h : IsForm p) : isLetter p = false := by
  obtain ⟨d, rfl, hd, -⟩ := h
  by_contra hl
  have hl : d.isAlpha = true := by simpa [Pseudo.isLetter] using hl
  have := alpha_lt hl
  omega

theorem IsForm.isIconChar {p : CodePoint} (h : IsForm p) : isIconChar p = false := by
  have h1 := h.ne (c := '-') (by decide)
  have h2 := h.ne (c := '~') (by decide)
  have h3 := h.isLetter
  obtain ⟨d, rfl, -, -⟩ := h
  simp only [ne_eq, CodePoint.char.injEq] at h1 h2
  simp only [Pseudo.isLetter] at h3
  simp [Placeholder.isIconChar, h1, h2, h3]

/-- A code point that is no letter stands for itself. -/
theorem mapped_other {p : CodePoint} (h : isLetter p = false) : mapped p = [p] := by
  cases p with
  | surrogate n => rfl
  | char c =>
    cases hd : accented? c with
    | none => simp [mapped, hd]
    | some d =>
      have := (accented?_some hd).1
      simp only [isLetter] at h
      rw [h] at this
      cases this

/-- A form stands for a letter, once or twice. -/
theorem mapped_letter {p : CodePoint} (h : isLetter p = true) :
    ∃ q, IsForm q ∧ (mapped p = [q] ∨ mapped p = [q, q]) := by
  cases p with
  | surrogate n => cases h
  | char c =>
    obtain ⟨d, hd⟩ := Option.isSome_iff_exists.mp (accented?_alpha h)
    obtain ⟨-, hascii, hblank⟩ := accented?_some hd
    refine ⟨.char d, ⟨d, rfl, hascii, hblank⟩, ?_⟩
    by_cases hdouble : isDoubled c = true
    · exact .inr (by simp [mapped, hd, hdouble])
    · exact .inl (by simp [mapped, hd, hdouble])

@[simp] theorem message_nil : message [] = [] := rfl

theorem message_cons_gap {p : CodePoint} {t : Text} (h : length? (p :: t) = none) :
    message (p :: t) = mapped p ++ message t := by
  obtain ⟨g, ps, ht, hpt⟩ := pieces_cons_gap h
  rw [message, message, ht, hpt]
  simp [text]

theorem message_placeholder {t : Text} {n : Nat} (h : length? t = some n) :
    message t = t.take n ++ message (t.drop n) := by
  rw [message, pieces_placeholder h]
  simp [message, text]

/-- A message with its letters replaced begins with a form, or as the message does. -/
theorem message_eq_cons {t u : Text} {q : CodePoint} (h : message t = q :: u) :
    IsForm q ∨ isLetter q = false ∧
      ∃ rest, t = q :: rest ∧ (u = message rest ∨ (length? t).isSome = true) := by
  cases t with
  | nil => cases h
  | cons p t =>
    cases hl : length? (p :: t) with
    | some n =>
      have hbegins := length?_eq_some_iff.mp hl
      obtain ⟨m, rfl⟩ := Nat.exists_eq_add_one.mpr hbegins.pos
      rw [message_placeholder hl, List.take_succ_cons, List.cons_append] at h
      obtain ⟨rfl, -⟩ := List.cons.inj h
      refine .inr ⟨?_, t, rfl, .inr rfl⟩
      obtain ⟨r, rest, ht, hr⟩ := hbegins.head
      obtain ⟨rfl, rfl⟩ := List.cons.inj ht
      simp only [isOpening, CodePoint.isChar, Bool.or_eq_true, beq_iff_eq] at hr
      rcases hr with (rfl | rfl) | rfl <;> rfl
    | none =>
      rw [message_cons_gap hl] at h
      by_cases hp : isLetter p = true
      · obtain ⟨d, hd, hm | hm⟩ := mapped_letter hp
        all_goals
          rw [hm] at h
          exact .inl ((List.cons.inj h).1 ▸ hd)
      · have hp : isLetter p = false := by simpa using hp
        rw [mapped_other hp] at h
        obtain ⟨rfl, rfl⟩ := List.cons.inj h
        exact .inr ⟨hp, t, rfl, .inl rfl⟩

/-- The name of an icon and its closing parenthesis come from the message itself. -/
theorem message_eq_icon {t name rest : Text} (known : ∀ p ∈ name, isIconChar p = true)
    (h : message t = name ++ .char ')' :: rest) : ∃ rest, t = name ++ .char ')' :: rest := by
  induction name generalizing t with
  | nil =>
    rcases message_eq_cons h with hf | ⟨-, rest, ht, -⟩
    · exact absurd rfl (hf.ne (c := ')') (by decide))
    · exact ⟨rest, ht⟩
  | cons p name ih =>
    have hp : isIconChar p = true := known p (by simp)
    rcases message_eq_cons h with hf | ⟨-, rest, rfl, hrest⟩
    · rw [hf.isIconChar] at hp
      cases hp
    · have hopen : isOpening p = false := by
        by_contra ho
        simp only [isOpening, CodePoint.isChar, Bool.not_eq_false, Bool.or_eq_true,
          beq_iff_eq] at ho
        rcases ho with (rfl | rfl) | rfl <;> cases hp
      rw [length?_eq_none rest hopen] at hrest
      have hrest := hrest.resolve_right (by simp)
      obtain ⟨after, rfl⟩ := ih (fun q hq => known q (List.mem_cons_of_mem _ hq)) hrest.symm
      exact ⟨after, rfl⟩

/-- A command link, whatever follows its mark, is not the rest of an icon. -/
theorem command_ne_icon {n : Nat} {link after name rest : Text}
    (known : ∀ p ∈ name, isIconChar p = true) :
    (Text.ofString "(command:" ++ link).take (n + 9) ++ after ≠
      .char '(' :: (name ++ .char ')' :: rest) := by
  intro h
  have htail := congrArg (fun t => ((t.drop 1).dropWhile isIconChar).head?) h
  have hparen : ∀ p ∈ (CodePoint.char ')' :: rest).head?, isIconChar p = false := by
    simp only [List.head?_cons, Option.mem_some_iff, forall_eq']
    decide
  simp only [List.drop_succ_cons, List.drop_zero, dropWhile_run known hparen] at htail
  simp [Text.ofString, Text.ofChars, isIconChar] at htail

/-- A text in which some letters are replaced by forms. -/
inductive Rewritten : Text → Text → Prop
  | nil : Rewritten [] []
  | same (p : CodePoint) {t u : Text} : Rewritten t u → Rewritten (p :: t) (p :: u)
  | letter {p : CodePoint} {t u : Text} : isLetter p = true → Rewritten t u →
    Rewritten (p :: t) (mapped p ++ u)

theorem Rewritten.append_left (s : Text) {t u : Text} (h : Rewritten t u) :
    Rewritten (s ++ t) (s ++ u) := by
  induction s with
  | nil => exact h
  | cons p s ih => exact .same p ih

theorem rewritten_message (t : Text) : Rewritten t (message t) := by
  induction t using pieces_induction with
  | nil => exact .nil
  | gap p t h ih =>
    rw [message_cons_gap h]
    by_cases hp : isLetter p = true
    · exact .letter hp ih
    · rw [mapped_other (by simpa using hp)]
      exact .same p ih
  | placeholder t n h ih =>
    have := ih.append_left (t.take n)
    rwa [List.take_append_drop, ← message_placeholder h] at this

theorem isLetter_isBlank {p : CodePoint} (h : isLetter p = true) : p.isBlank = false := by
  cases p with
  | surrogate n => rfl
  | char c =>
    have hascii : ∀ n < 0x80, (Char.ofNat n).isAlpha = true →
        isBlankChar (Char.ofNat n) = false := by decide
    have hc := hascii c.toNat (alpha_lt h)
    rw [Char.ofNat_toNat] at hc
    exact hc h

/-- Before the first blank, forms bring no closing brace. -/
theorem Rewritten.brace_mem {t u : Text} (h : Rewritten t u)
    (hu : CodePoint.char '}' ∈ u.takeWhile fun p => !p.isBlank) :
    CodePoint.char '}' ∈ t.takeWhile fun p => !p.isBlank := by
  induction h with
  | nil => exact hu
  | same p h ih =>
    by_cases hp : p.isBlank = true
    · simp [hp] at hu
    · simp only [Bool.not_eq_true] at hp
      simp only [List.takeWhile_cons, hp, Bool.not_false, if_true, List.mem_cons] at hu ⊢
      exact hu.imp id ih
  | @letter p t u hp h ih =>
    obtain ⟨q, hq, hm⟩ := mapped_letter hp
    have hne := (hq.ne (c := '}') (by decide)).symm
    simp only [List.takeWhile_cons, isLetter_isBlank hp, Bool.not_false, if_true, List.mem_cons]
    refine .inr (ih ?_)
    rcases hm with hm | hm <;> simpa [hm, hq.isBlank, hne] using hu

/-- The same after the first code point: a form that stands twice brings no closing brace. -/
theorem Rewritten.brace_mem_tail {t u : Text} (h : Rewritten t u)
    (hu : CodePoint.char '}' ∈ (u.takeWhile fun p => !p.isBlank).tail) :
    CodePoint.char '}' ∈ (t.takeWhile fun p => !p.isBlank).tail := by
  cases h with
  | nil => exact hu
  | same p h =>
    by_cases hp : p.isBlank = true
    · simp [hp] at hu
    · simp only [Bool.not_eq_true] at hp
      simp only [List.takeWhile_cons, hp, Bool.not_false, if_true, List.tail_cons] at hu ⊢
      exact h.brace_mem hu
  | @letter p t u hp h =>
    obtain ⟨q, hq, hm⟩ := mapped_letter hp
    have hne := (hq.ne (c := '}') (by decide)).symm
    simp only [List.takeWhile_cons, isLetter_isBlank hp, Bool.not_false, if_true, List.tail_cons]
    refine h.brace_mem ?_
    rcases hm with hm | hm <;> simpa [hm, hq.isBlank, hne] using hu

/-- Where no placeholder begins, none begins after letters are replaced. -/
theorem length?_message_eq_none {p : CodePoint} {t : Text} (h : length? (p :: t) = none) :
    length? (p :: message t) = none := by
  rw [Option.eq_none_iff_forall_ne_some] at h ⊢
  intro n hn
  have hbegins := length?_eq_some_iff.mp hn
  generalize hu : p :: message t = u at hbegins
  cases hbegins with
  | command nonempty solid ends =>
    obtain ⟨rfl, ht⟩ := List.cons.inj hu
    rcases message_eq_cons ht with hf | ⟨hl, -⟩
    · exact hf.ne (c := 'c') (by decide) rfl
    · cases hl
  | @icon name rest nonempty known =>
    obtain ⟨rfl, ht⟩ := List.cons.inj hu
    rcases message_eq_cons ht with hf | ⟨-, after, rfl, hafter | hsome⟩
    · exact hf.ne (c := '(') (by decide) rfl
    · obtain ⟨rest, rfl⟩ := message_eq_icon known hafter.symm
      exact h _ (length?_eq_some_iff.mpr (.icon nonempty known))
    · obtain ⟨m, hm⟩ := Option.isSome_iff_exists.mp hsome
      have hcommand := length?_eq_some_iff.mp hm
      rw [message_placeholder hm] at ht
      generalize hv : CodePoint.char '(' :: after = v at hcommand ht
      cases hcommand with
      | command => exact absurd ht (command_ne_icon known)
      | icon => cases hv
      | brace => cases hv
  | @brace body tail rest nonempty solid solidTail last ends =>
    obtain ⟨rfl, ht⟩ := List.cons.inj hu
    have hmem : CodePoint.char '}' ∈ ((message t).takeWhile fun p => !p.isBlank).tail := by
      have hrun : ∀ p ∈ body ++ [CodePoint.char '}'] , (!p.isBlank) = true := by
        intro p hp
        rcases List.mem_append.mp hp with hp | hp
        · simp [solid p hp]
        · rw [List.mem_singleton.mp hp]
          decide
      obtain ⟨q, body, rfl⟩ := List.exists_cons_of_ne_nil nonempty
      have hsplit : (q :: body) ++ .char '}' :: (tail ++ rest) =
          ((q :: body) ++ [CodePoint.char '}']) ++ (tail ++ rest) := by simp
      rw [ht, hsplit, List.takeWhile_append_of_pos hrun]
      simp
    obtain ⟨m, hm⟩ := exists_begins_brace ((rewritten_message t).brace_mem_tail hmem)
    exact h m (length?_eq_some_iff.mpr hm)

/-- What begins with a blank begins with it after letters are replaced. -/
theorem isBlank_head_message {t : Text} (h : ∀ p ∈ t.head?, p.isBlank = true) :
    ∀ p ∈ (message t).head?, p.isBlank = true := by
  cases t with
  | nil => exact h
  | cons q t =>
    have hq : q.isBlank = true := h q (by simp)
    have hopen : isOpening q = false := by
      by_contra ho
      simp only [isOpening, CodePoint.isChar, Bool.not_eq_false, Bool.or_eq_true, beq_iff_eq] at ho
      rcases ho with (rfl | rfl) | rfl <;> revert hq <;> decide
    have hletter : isLetter q = false := by
      by_contra hl
      rw [isLetter_isBlank (by simpa using hl)] at hq
      cases hq
    rw [message_cons_gap (length?_eq_none t hopen), mapped_other hletter]
    simpa using hq

/-- A placeholder ends where it did before the letters behind it are replaced. -/
theorem length?_take_message {t : Text} {n : Nat} (h : length? t = some n) :
    length? (t.take n ++ message (t.drop n)) = some n := by
  have hbegins := length?_eq_some_iff.mp h
  rw [length?_eq_some_iff]
  cases hbegins with
  | @command run rest nonempty solid ends =>
    have hmark : (Text.ofString "(command:").length = 9 := rfl
    rw [← List.append_assoc, List.take_left' (by simp [hmark, Nat.add_comm]),
      List.drop_left' (by simp [hmark, Nat.add_comm]), List.append_assoc]
    exact .command nonempty solid (isBlank_head_message ends)
  | @icon name rest nonempty known =>
    have hsplit : CodePoint.char '$' :: .char '(' :: (name ++ .char ')' :: rest) =
        (.char '$' :: .char '(' :: (name ++ [.char ')'])) ++ rest := by simp
    rw [hsplit, List.take_left' (by simp), List.drop_left' (by simp)]
    have hicon : Begins (.char '$' :: .char '(' :: (name ++ .char ')' :: message rest)) _ :=
      .icon nonempty known
    simpa using hicon
  | @brace body tail rest nonempty solid solidTail last ends =>
    have hsplit : CodePoint.char '{' :: (body ++ .char '}' :: (tail ++ rest)) =
        (.char '{' :: (body ++ [.char '}'])) ++ (tail ++ rest) := by simp
    rw [hsplit, List.take_left' (by simp), List.drop_left' (by simp)]
    obtain ⟨run, after, hafter, solidRun, endsAfter⟩ := exists_solid_run (message (tail ++ rest))
    -- What follows the last closing brace in the run still holds none.
    have hrun : CodePoint.char '}' ∉ run := by
      intro hm
      refine last ?_
      have := (rewritten_message (tail ++ rest)).brace_mem
      rw [hafter, takeWhile_run (by simpa using solidRun) (by simpa using endsAfter),
        takeWhile_run (by simpa using solidTail) (by simpa using ends)] at this
      exact this hm
    have := Begins.brace nonempty solid solidRun hrun endsAfter
    rw [hafter]
    simpa using this

/-- A piece with its letters replaced if it is a gap. -/
def localized : Piece → Piece
  | .gap g => .gap (text g)
  | .placeholder p => .placeholder p

/-- The pieces of a message with its letters replaced are those of the message, with the letters of
the gaps replaced. -/
theorem pieces_message (t : Text) : pieces (message t) = (pieces t).map localized := by
  induction t using pieces_induction with
  | nil => rfl
  | gap p t h ih =>
    obtain ⟨g, ps, ht, hpt⟩ := pieces_cons_gap h
    rw [ht, List.map_cons] at ih
    have hmapped : pieces (mapped p ++ message t) =
        .gap (mapped p ++ text g) :: ps.map localized := by
      by_cases hp : isLetter p = true
      · refine pieces_append_gap (fun q hq => ?_) ih
        obtain ⟨f, hf, hm | hm⟩ := mapped_letter hp
        all_goals
          obtain rfl : q = f := by simpa [hm] using hq
          exact hf.isOpening
      · rw [mapped_other (by simpa using hp)]
        obtain ⟨g', ps', hg, hpg⟩ := pieces_cons_gap (length?_message_eq_none h)
        rw [ih] at hg
        injection hg with hg hps
        injection hg with hg
        rw [List.cons_append, List.nil_append, hpg, ← hg, ← hps]
        rfl
    rw [message_cons_gap h, hmapped, hpt]
    rfl
  | placeholder t n h ih =>
    have hle : n ≤ t.length := (length?_eq_some_iff.mp h).le_length
    rw [message_placeholder h, pieces_placeholder (length?_take_message h), pieces_placeholder h,
      List.take_left' (List.length_take_of_le hle),
      List.drop_left' (List.length_take_of_le hle), ih]
    rfl

theorem isLetter_of_mem_text {g : Text} {p : CodePoint} (h : p ∈ text g) : isLetter p = false := by
  obtain ⟨q, -, hp⟩ := List.mem_flatMap.mp h
  by_cases hq : isLetter q = true
  · obtain ⟨f, hf, hm | hm⟩ := mapped_letter hq
    all_goals
      obtain rfl : p = f := by simpa [hm] using hp
      exact hf.isLetter
  · have hq : isLetter q = false := by simpa using hq
    rw [mapped_other hq, List.mem_singleton] at hp
    rw [hp]
    exact hq

theorem text_text (g : Text) : text (text g) = text g := by
  have hself : ∀ t : Text, (∀ p ∈ t, isLetter p = false) → text t = t := by
    intro t ht
    induction t with
    | nil => rfl
    | cons p t ih =>
      rw [text, List.flatMap_cons, mapped_other (ht p (by simp))]
      exact congrArg (p :: ·) (ih fun q hq => ht q (List.mem_cons_of_mem _ hq))
  exact hself _ fun p hp => isLetter_of_mem_text hp

/-- The placeholders of a message stay, in their order. -/
theorem all_message (t : Text) : Placeholder.all (message t) = Placeholder.all t := by
  rw [Placeholder.all, pieces_message, List.filterMap_map, Placeholder.all]
  congr 1
  funext piece
  cases piece <;> rfl

/-- A message that has been replaced stays as it is. -/
theorem message_message (t : Text) : message (message t) = message t := by
  rw [message, pieces_message, List.flatMap_map, message]
  congr 1
  funext piece
  cases piece with
  | gap g => exact text_text g
  | placeholder p => rfl

/-- Pseudo-localization keeps the placeholders of a message in their order, so that none is missing;
every ASCII letter that is left belongs to one of them; and doing it again changes nothing. -/
theorem message_keeps_placeholders (t : Text) :
    Placeholder.all (message t) = Placeholder.all t ∧ Placeholder.validate t (message t) = [] ∧
      (pieces (message t)).flatMap Piece.text = message t ∧
      (∀ g, Piece.gap g ∈ pieces (message t) → ∀ c, CodePoint.char c ∈ g → c.isAlpha = false) ∧
      message (message t) = message t := by
  refine ⟨all_message t, ?_, flatMap_pieces _, fun g hg c hc => ?_, message_message t⟩
  · have hmissing : (Placeholder.distinct t).filter
        (fun p => !(Placeholder.all (message t)).contains p) = [] := by
      rw [List.filter_eq_nil_iff, all_message]
      intro p hp
      simpa [Placeholder.distinct] using hp
    simp only [Placeholder.validate, Placeholder.missing, hmissing, List.mergeSort_nil,
      List.map_nil]
  · rw [pieces_message] at hg
    obtain ⟨piece, -, hpiece⟩ := List.mem_map.mp hg
    cases piece with
    | placeholder p => cases hpiece
    | gap f =>
      cases hpiece
      exact isLetter_of_mem_text hc

end Localization.Pseudo
