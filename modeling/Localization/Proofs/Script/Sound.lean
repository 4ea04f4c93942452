import Localization.Proofs.Lines
import Localization.Proofs.Script.Token
import Mathlib.Algebra.Group.Nat.Even

/-! A sound text is read by itself, whatever stands behind it, because each of its tokens ends where
it does. A text is sound, or sound up to a backslash at its end, or has a malformed token. Leaving
out CR before LF changes nothing about this. -/

namespace Localization.Script

/-- A token that stands for a code point, and ends where it does whatever stands behind it. -/
def Token.Complete (t : Token) : Prop := ¬ t.Malformed ∧ t ≠ .lone

/-- A text whose tokens are all complete. -/
inductive Sound : List Char → Prop
  | nil : Sound []
  | cons {t : Token} {rest : List Char} (ht : t.Begins rest) (hc : t.Complete)
    (hrest : Sound rest) : Sound (t.chars ++ rest)

/-- A text with a malformed escape sequence. -/
def Faulty (cs : List Char) : Prop := ∃ ts, Split cs ts ∧ ∃ t ∈ ts, t.Malformed

namespace Token

variable {t : Token} {rest : List Char}

theorem not_isHexDigit {c : Char} (h : hexDigit? c = none) (d : Nat) : ¬ IsHexDigit c d := by
  intro hd
  rw [hd.value] at h
  cases h

theorem length_of_not_malformed (h : ¬ t.Malformed) : t.least ≤ t.digits.length :=
  Nat.le_of_not_lt fun hshort => h (.short hshort)

/-- What is no digit in base sixteen does not stand in the number of a token. -/
theorem not_mem_digits (h : ¬ t.Malformed) {c : Char} (hc : hexDigit? c = none) :
    c ∉ t.digits := fun hmem => h (.digit hmem (not_isHexDigit hc))

/-- As many characters as are taken are taken whatever stands behind them. -/
theorem eq_take_of_le {ds more : List Char} {n : Nat} (htake : ds = (ds ++ more).take n)
    (h : n ≤ ds.length) (w : List Char) : ds = (ds ++ w).take n := by
  have hlength := congrArg List.length htake
  rw [List.length_take] at hlength
  exact (List.take_left' (by omega)).symm

theorem Begins.anywhere (h : t.Begins rest) (hc : t.Complete) (more : List Char) :
    t.Begins more := by
  obtain ⟨hgood, hlone⟩ := hc
  have hlength := length_of_not_malformed hgood
  cases t with
  | plain c | control c | quoted c | braced ds => exact h
  | byte ds => exact eq_take_of_le h hlength more
  | unit ds =>
    obtain ⟨hbrace, htake⟩ := h
    refine ⟨?_, eq_take_of_le htake hlength more⟩
    cases ds with
    | nil => cases hlength
    | cons d ds => exact hbrace
  | unclosed ds => exact absurd (.unclosed ds) hgood
  | lone => exact absurd rfl hlone

theorem Begins.faulty_iff (h : t.Begins rest) :
    Faulty (t.chars ++ rest) ↔ t.Malformed ∨ Faulty rest := by
  constructor
  · rintro ⟨ts, hts, u, hu, hbad⟩
    obtain ⟨ts, rfl, hrest⟩ := hts.cons_inv h
    rcases List.mem_cons.mp hu with rfl | hu
    · exact .inl hbad
    · exact .inr ⟨ts, hrest, u, hu, hbad⟩
  · rintro (hbad | ⟨ts, hts, u, hu, hbad⟩)
    · obtain ⟨ts, hts⟩ := Split.exists_split rest
      exact ⟨t :: ts, .cons h hts, t, by simp, hbad⟩
    · exact ⟨t :: ts, .cons h hts, u, by simp [hu], hbad⟩

theorem complete_plain (c : Char) : (plain c).Complete :=
  ⟨not_malformed rfl rfl (by simp), by simp⟩

theorem complete_quoted (c : Char) : (quoted c).Complete :=
  ⟨not_malformed rfl rfl (by simp), by simp⟩

end Token

variable {cs a b : List Char}

theorem faulty_iff : Faulty cs ↔ ∃ e, unescapeFrom 0 cs = .error e := by
  constructor
  · rintro ⟨ts, hts, hbad⟩
    exact hts.exists_error_iff.mpr hbad
  · intro herror
    obtain ⟨ts, hts⟩ := Split.exists_split cs
    exact ⟨ts, hts, hts.exists_error_iff.mp herror⟩

theorem not_faulty_iff : ¬ Faulty cs ↔ ∃ t, unescapeFrom 0 cs = .ok t := by
  rw [faulty_iff]
  cases unescapeFrom 0 cs <;> simp

theorem not_faulty_nil : ¬ Faulty [] := not_faulty_iff.mpr ⟨_, rfl⟩

theorem not_faulty_lone : ¬ Faulty ['\\'] := not_faulty_iff.mpr ⟨_, rfl⟩

namespace Sound

/-- Without a backslash, every character is a token. -/
theorem of_plain (h : '\\' ∉ cs) : Sound cs := by
  induction cs with
  | nil => exact .nil
  | cons c cs ih =>
    simp only [List.mem_cons, not_or] at h
    exact .cons (t := .plain c) (Ne.symm h.1) (Token.complete_plain c) (ih h.2)

/-- A text is sound behind its first token if it is sound at all. -/
theorem behind {t : Token} {rest : List Char} (h : Sound (t.chars ++ rest)) (ht : t.Begins rest) :
    Sound rest := by
  generalize hcs : t.chars ++ rest = cs at h
  cases h with
  | nil => cases t <;> simp [Token.chars] at hcs
  | cons hu _ hrest =>
    obtain ⟨-, rfl⟩ := ht.unique hu hcs
    exact hrest

/-- What a sound text stands for comes before what is behind it stands for. -/
theorem read (ha : Sound a) : ∃ t, unescapeFrom 0 a = .ok t ∧
    ∀ b, unescapeFrom 0 (a ++ b) = (unescapeFrom 0 b).map (t ++ ·) := by
  induction ha with
  | nil =>
    refine ⟨[], rfl, fun b => ?_⟩
    rw [List.nil_append]
    cases unescapeFrom 0 b <;> rfl
  | @cons u rest hu hc _ ih =>
    obtain ⟨p, hp⟩ := Token.exists_read_iff.mpr hc.1
    obtain ⟨t, ht, hbehind⟩ := ih
    refine ⟨p :: t, ?_, fun b => ?_⟩
    · rw [hu.read, hp, ht]
      rfl
    · rw [List.append_assoc, (hu.anywhere hc _).read, hp, hbehind]
      cases unescapeFrom 0 b <;> rfl

theorem faulty_append (ha : Sound a) : Faulty (a ++ b) ↔ Faulty b := by
  induction ha with
  | nil => rfl
  | cons ht hc _ ih => rw [List.append_assoc, (ht.anywhere hc _).faulty_iff, or_iff_right hc.1, ih]

theorem not_faulty (ha : Sound a) : ¬ Faulty a := by
  rw [← a.append_nil, ha.faulty_append]
  exact not_faulty_nil

end Sound

/-- A text is sound up to its end, to a backslash there, or to its first malformed token. -/
theorem exists_sound (cs : List Char) : ∃ before rest, cs = before ++ rest ∧ Sound before ∧
    (rest = [] ∨ rest = ['\\'] ∨
      ∃ t more, rest = Token.chars t ++ more ∧ t.Begins more ∧ t.Malformed) := by
  obtain ⟨ts, hts⟩ := Split.exists_split cs
  induction hts with
  | nil => exact ⟨[], [], rfl, .nil, .inl rfl⟩
  | @cons t more ts ht _ ih =>
    by_cases hbad : t.Malformed
    · exact ⟨[], _, rfl, .nil, .inr (.inr ⟨t, more, rfl, ht, hbad⟩)⟩
    by_cases hlone : t = .lone
    · subst hlone
      obtain rfl : more = [] := ht
      exact ⟨[], ['\\'], rfl, .nil, .inr (.inl rfl)⟩
    · obtain ⟨before, rest, rfl, hbefore, hrest⟩ := ih
      have hc : t.Complete := ⟨hbad, hlone⟩
      exact ⟨t.chars ++ before, rest, by simp, .cons (ht.anywhere hc _) hc hbefore, hrest⟩

theorem not_faulty_cases (h : ¬ Faulty cs) : Sound cs ∨ ∃ before, cs = before ++ ['\\'] ∧
    Sound before := by
  obtain ⟨before, rest, rfl, hbefore, rfl | rfl | ⟨t, more, rfl, ht, hbad⟩⟩ := exists_sound cs
  · exact .inl (by rwa [List.append_nil])
  · exact .inr ⟨before, rfl, hbefore⟩
  · rw [hbefore.faulty_append, ht.faulty_iff] at h
    exact absurd (.inl hbad) h

/-! CR before LF. -/

theorem exists_of_unixLines (hlines : unixLines cs = a ++ b) (ha : '\n' ∉ a) :
    ∃ d, cs = a ++ d ∧ unixLines d = b := by
  induction cs using unixLines.induct generalizing a with
  | case1 cs _ =>
    cases a with
    | nil => exact ⟨_, rfl, hlines⟩
    | cons c a =>
      rw [unixLines] at hlines
      obtain ⟨rfl, -⟩ := List.cons.inj hlines
      simp at ha
  | case2 c cs hc ih =>
    cases a with
    | nil => exact ⟨_, rfl, hlines⟩
    | cons d a =>
      rw [unixLines, List.cons_append] at hlines
      · obtain ⟨rfl, htail⟩ := List.cons.inj hlines
        obtain ⟨d, rfl, hd⟩ := ih htail fun hmem => ha (List.mem_cons_of_mem _ hmem)
        exact ⟨d, rfl, hd⟩
      · exact hc
  | case3 =>
    obtain ⟨rfl, rfl⟩ := List.append_eq_nil_iff.mp hlines.symm
    exact ⟨[], rfl, rfl⟩

theorem parted_backslash (a b : List Char) : Parted a ('\\' :: b) := fun _ => by simp

namespace Token

variable {t u : Token} {rest : List Char}

/-- CR is a token of its own, or stands behind a backslash. -/
theorem Complete.cases_cr (hc : t.Complete) (ht : t.Begins rest) (hmem : '\r' ∈ t.chars) :
    t = plain '\r' ∨ t = quoted '\r' := by
  have hdigits := not_mem_digits hc.1 (c := '\r') rfl
  cases t with
  | plain c =>
    obtain rfl : '\r' = c := by simpa [chars] using hmem
    exact .inl rfl
  | quoted c =>
    obtain rfl : '\r' = c := by simpa [chars] using hmem
    exact .inr rfl
  | control c =>
    obtain rfl : '\r' = c := by simpa [chars] using hmem
    simp [Begins] at ht
  | byte ds | unit ds | braced ds => exact absurd hmem (by simpa [chars, digits] using hdigits)
  | unclosed ds => exact absurd (.unclosed ds) hc.1
  | lone => exact absurd rfl hc.2

/-- No token holds CR and LF. -/
theorem Complete.unixLines_chars (hc : t.Complete) (ht : t.Begins rest) :
    unixLines t.chars = t.chars := by
  by_cases hmem : '\r' ∈ t.chars
  · rcases hc.cases_cr ht hmem with rfl | rfl <;> rfl
  · exact LineReading.unix.of_not_mem hmem

theorem Malformed.exists_chars (h : t.Malformed) :
    ∃ d ds, t.chars = '\\' :: d :: ds ∧ (d = 'x' ∨ d = 'u') := by
  cases t with
  | plain c | control c | quoted c | lone =>
    exact absurd h (not_malformed rfl rfl (by simp))
  | byte ds => exact ⟨_, _, rfl, .inl rfl⟩
  | unit ds | braced ds | unclosed ds => exact ⟨_, _, rfl, .inr rfl⟩

/-- What is not malformed where a number is to stand is a number, and complete. -/
theorem Begins.number {d : Char} {more : List Char} (hu : u.Begins rest) (hgood : ¬ u.Malformed)
    (h : u.chars ++ rest = '\\' :: d :: more) (hd : d = 'x' ∨ d = 'u') :
    u.Complete ∧ '\n' ∉ u.chars := by
  have hdigits := not_mem_digits hgood (c := '\n') rfl
  cases u with
  | plain c => exact absurd (List.cons.inj h).1 hu
  | control c | quoted c =>
    obtain ⟨rfl, -⟩ := List.cons.inj (List.cons.inj h).2
    rcases hd with rfl | rfl <;> simp [Begins] at hu
  | byte ds | unit ds | braced ds =>
    exact ⟨⟨hgood, by simp⟩, by simpa [chars, digits] using hdigits⟩
  | unclosed ds => exact absurd (.unclosed ds) hgood
  | lone =>
    obtain rfl : rest = [] := hu
    cases h

/-- A malformed token is malformed with the line ends of LF alone, too: whatever number stood there
then would have stood there before. -/
theorem Begins.faulty_unixLines (ht : t.Begins rest) (hbad : t.Malformed) :
    Faulty (unixLines (t.chars ++ rest)) := by
  obtain ⟨d, ds, hchars, hd⟩ := hbad.exists_chars
  have hlines : unixLines (t.chars ++ rest) = '\\' :: d :: unixLines (ds ++ rest) := by
    rw [hchars]
    exact LineReading.unix.verbatim (a := ['\\', d]) (by rcases hd with rfl | rfl <;> simp) _
  have hne : unixLines (t.chars ++ rest) ≠ [] := by simp [hlines]
  obtain ⟨u, more, hsplit, hu⟩ := exists_begins hne
  by_contra hgood
  rw [hsplit, hu.faulty_iff, not_or] at hgood
  obtain ⟨hc, hnumber⟩ := hu.number hgood.1 (hsplit.symm.trans hlines) hd
  obtain ⟨behind, heq, -⟩ := exists_of_unixLines hsplit hnumber
  obtain ⟨rfl, -⟩ := ht.unique (hu.anywhere hc behind) heq
  exact hgood.1 hbad

end Token

theorem Sound.unixLines (h : Sound cs) : Sound (unixLines cs) := by
  induction h with
  | nil => exact .nil
  | @cons t rest ht hc _ ih =>
    by_cases hparted : Parted t.chars rest
    · rw [unixLines_append hparted, hc.unixLines_chars ht]
      exact .cons (ht.anywhere hc _) hc ih
    · -- CR ends the token and LF begins the rest. They become LF, which is read in place of CR.
      obtain ⟨hlast, hhead⟩ := Classical.not_imp.mp hparted
      obtain ⟨more, rfl⟩ := List.head?_eq_some_iff.mp (Classical.not_not.mp hhead)
      rcases hc.cases_cr ht (List.mem_of_getLast? hlast) with rfl | rfl
      · exact ih
      · have hmore : Sound (Script.unixLines more) :=
          Sound.behind (t := .plain '\n') ih (by simp [Token.Begins])
        exact .cons (t := .quoted '\n') (by simp [Token.Begins]) (Token.complete_quoted _) hmore

/-- Escape sequences are malformed with CR before LF exactly if they are without. -/
theorem faulty_unixLines : Faulty (unixLines cs) ↔ Faulty cs := by
  constructor
  · contrapose
    intro hgood
    rcases not_faulty_cases hgood with hsound | ⟨before, rfl, hbefore⟩
    · exact hsound.unixLines.not_faulty
    · rw [unixLines_append (parted_backslash _ _), hbefore.unixLines.faulty_append]
      exact not_faulty_lone
  · intro hfaulty
    obtain ⟨before, rest, rfl, hbefore, rfl | rfl | ⟨t, more, rfl, ht, hbad⟩⟩ := exists_sound cs
    · exact absurd (hbefore.faulty_append.mp hfaulty) not_faulty_nil
    · exact absurd (hbefore.faulty_append.mp hfaulty) not_faulty_lone
    · obtain ⟨d, ds, hchars, -⟩ := hbad.exists_chars
      have hparted : Parted before (t.chars ++ more) := by
        rw [hchars]
        exact parted_backslash _ _
      rw [unixLines_append hparted, hbefore.unixLines.faulty_append]
      exact ht.faulty_unixLines hbad

/-! Backslashes at the end. -/

/-- How many backslashes a text ends with. -/
def backslashes (cs : List Char) : Nat := (cs.reverse.takeWhile (· = '\\')).length

theorem backslashes_append (a b : List Char) :
    backslashes (a ++ b) = backslashes b ∨ backslashes (a ++ b) = b.length + backslashes a ∧
      backslashes b = b.length := by
  unfold backslashes
  rw [List.reverse_append, List.takeWhile_append]
  split
  · rename_i hall
    right
    simpa using hall
  · exact .inl rfl

theorem backslashes_of_ne {c : Char} (h : c ≠ '\\') (cs : List Char) :
    backslashes (cs ++ [c]) = 0 := by
  simp [backslashes, h]

theorem backslashes_concat (cs : List Char) : backslashes (cs ++ ['\\']) = backslashes cs + 1 := by
  simp [backslashes]

/-- Only a backslash behind another one ends a token. -/
theorem Token.Complete.exists_last {t : Token} {rest : List Char} (hc : t.Complete)
    (ht : t.Begins rest) (hquoted : t ≠ .quoted '\\') :
    ∃ before c, t.chars = before ++ [c] ∧ c ≠ '\\' := by
  have hdigits := not_mem_digits hc.1 (c := '\\') rfl
  have hlength := length_of_not_malformed hc.1
  cases t with
  | plain c => exact ⟨[], c, rfl, ht⟩
  | control c =>
    refine ⟨['\\'], c, rfl, ?_⟩
    rintro rfl
    simp [Begins] at ht
  | quoted c => exact ⟨['\\'], c, rfl, by simpa using hquoted⟩
  | byte ds | unit ds =>
    rcases List.eq_nil_or_concat ds with rfl | ⟨ds, d, rfl⟩
    · simp [least, digits] at hlength
    · refine ⟨'\\' :: _ :: ds, d, congrArg (_ :: _ :: ·) (List.concat_eq_append ..), ?_⟩
      rintro rfl
      simp [digits] at hdigits
  | braced ds => exact ⟨_ :: _ :: _ :: ds, '}', rfl, by decide⟩
  | unclosed ds => exact absurd (.unclosed ds) hc.1
  | lone => exact absurd rfl hc.2

theorem Token.Complete.even_backslashes {t : Token} {rest : List Char} (hc : t.Complete)
    (ht : t.Begins rest) : Even (backslashes t.chars) := by
  by_cases hquoted : t = .quoted '\\'
  · subst hquoted
    exact ⟨1, rfl⟩
  · obtain ⟨before, c, hchars, hne⟩ := hc.exists_last ht hquoted
    rw [hchars, backslashes_of_ne hne]
    exact Even.zero

theorem Sound.even_backslashes (h : Sound cs) : Even (backslashes cs) := by
  induction h with
  | nil => exact ⟨0, rfl⟩
  | @cons t rest ht hc _ ih =>
    rcases backslashes_append t.chars rest with heq | ⟨heq, hall⟩
    · rwa [heq]
    · rw [heq, ← hall]
      exact ih.add (hc.even_backslashes ht)

/-- A text without a malformed token, and without a backslash at its end that is the first one of a
pair that is cut off, is sound. -/
theorem sound_of_not_faulty (h : ¬ Faulty cs) (hend : ¬ Odd (backslashes cs)) : Sound cs := by
  rcases not_faulty_cases h with hsound | ⟨before, rfl, hbefore⟩
  · exact hsound
  · rw [backslashes_concat] at hend
    exact absurd hbefore.even_backslashes.add_one hend

end Localization.Script
