import Localization.Proofs.Text
import Localization.Proofs.Xml.Content

/-! What is taken of a text while a part of it is read. Whatever the part is, the characters taken
are legal, and a token takes one of them at least. -/

namespace Localization.Xml

/-! Characters of names are legal. -/

theorem isLegal_of_lt {c : Char} (h : 0x20 ≤ c.toNat) (hlt : c.toNat < 0xFFFE) :
    isLegal c = true := by
  simp only [isLegal, Bool.and_eq_true, Bool.or_eq_true, decide_eq_true_eq, bne_iff_ne]
  omega

theorem isLegal_of_isBlank {c : Char} (h : isBlank c = true) : isLegal c = true := by
  simp only [isBlank, Bool.or_eq_true, beq_iff_eq] at h
  rcases h with ((rfl | rfl) | rfl) | rfl <;> decide

theorem isLegal_of_isDigit {c : Char} (h : c.isDigit = true) : isLegal c = true := by
  have hrange := range_of_isDigit h
  exact isLegal_of_lt (by omega) (by omega)

theorem isLegal_of_isAlpha {c : Char} (h : c.isAlpha = true) : isLegal c = true := by
  have hrange := range_of_isAlpha h
  exact isLegal_of_lt (by omega) (by omega)

theorem isLegal_of_inRanges {ranges : List (Nat × Nat)} (hranges : ∀ r ∈ ranges, r.2 < 0xFFFE)
    {c : Char} (h : (decide (0x80 ≤ c.toNat) && inRanges ranges c) = true) : isLegal c = true := by
  simp only [Bool.and_eq_true, decide_eq_true_eq] at h
  obtain ⟨r, hr, hin⟩ := List.any_eq_true.mp h.2
  simp only [Bool.and_eq_true, decide_eq_true_eq] at hin
  have hlt := hranges r hr
  exact isLegal_of_lt (by omega) (by omega)

theorem isLegal_of_isNameStart {c : Char} (h : isNameStart c = true) : isLegal c = true := by
  rw [isNameStart, Bool.or_eq_true, Bool.or_eq_true, beq_iff_eq] at h
  rcases h with (h | rfl) | h
  · exact isLegal_of_isAlpha h
  · decide
  · exact isLegal_of_inRanges (by decide +kernel) h

theorem isLegal_of_isNameChar {c : Char} (h : isNameChar c = true) : isLegal c = true := by
  simp only [isNameChar, Bool.or_eq_true, beq_iff_eq] at h
  rcases h with (((h | h) | rfl) | rfl) | h
  · exact isLegal_of_isNameStart h
  · exact isLegal_of_isDigit h
  · decide
  · decide
  · exact isLegal_of_inRanges (by decide +kernel) h

theorem isLegal_of_isHexDigit {c : Char} (h : isHexDigit c = true) : isLegal c = true := by
  have hletter : ∀ a b : Char, 0x20 ≤ a.toNat → b.toNat < 0xFFFE →
      (decide (a ≤ c) && decide (c ≤ b)) = true → isLegal c = true := by
    intro a b hlow hhigh hrange
    simp only [Bool.and_eq_true, decide_eq_true_eq] at hrange
    have hac : a.toNat ≤ c.toNat := hrange.1
    have hcb : c.toNat ≤ b.toNat := hrange.2
    exact isLegal_of_lt (by omega) (by omega)
  rw [isHexDigit, hexValue?] at h
  split at h
  · rename_i hdigit
    exact isLegal_of_isDigit hdigit
  · split at h
    · rename_i hsmall
      exact hletter _ _ (by decide) (by decide) hsmall
    · split at h
      · rename_i hlarge
        exact hletter _ _ (by decide) (by decide) hlarge
      · cases h

/-! Taking. -/

/-- Legal characters are taken from the front of a text, and the rest is left. -/
inductive Takes : List Char → List Char → Prop
  | done (cs : List Char) : Takes cs cs
  | char {c : Char} {cs r : List Char} (hc : isLegal c = true) (h : Takes cs r) : Takes (c :: cs) r

namespace Takes

variable {cs r s : List Char}

theorem trans (h : Takes cs r) (h' : Takes r s) : Takes cs s := by
  induction h with
  | done => exact h'
  | char hc _ ih => exact .char hc (ih h')

theorem length_le (h : Takes cs r) : r.length ≤ cs.length := by
  induction h with
  | done => exact Nat.le_refl _
  | char _ _ ih => exact Nat.le_succ_of_le ih

theorem legal (h : Takes cs r) (hr : ∀ c ∈ r, isLegal c = true) : ∀ c ∈ cs, isLegal c = true := by
  induction h with
  | done => exact hr
  | char hc _ ih => exact List.forall_mem_cons.mpr ⟨hc, ih hr⟩

theorem append (taken : List Char) (h : taken.all isLegal = true) : Takes (taken ++ r) r := by
  induction taken with
  | nil => exact .done r
  | cons c taken ih =>
    rw [List.all_cons, Bool.and_eq_true] at h
    exact .char h.1 (ih h.2)

theorem span {p : Char → Bool} (hp : ∀ c, p c = true → isLegal c = true) {n : List Char}
    (h : cs.span p = (n, r)) : Takes cs r := by
  rw [List.span_eq_takeWhile_dropWhile] at h
  obtain ⟨rfl, rfl⟩ := Prod.mk.inj h
  nth_rewrite 1 [← cs.takeWhile_append_dropWhile (p := p)]
  exact append _ (List.all_eq_true.mpr fun c hc => hp c (List.mem_takeWhile_imp hc))

theorem skipBlanks (cs : List Char) : Takes cs (skipBlanks cs) :=
  span (fun _ => isLegal_of_isBlank) (List.span_eq_takeWhile_dropWhile isBlank cs)

end Takes

/-- What an item takes of a text is legal. -/
def Consumes {ε α : Type} (scan : List Char → Except ε (Scanned α)) : Prop :=
  ∀ {cs : List Char} {a : α} {r : List Char}, scan cs = .ok (a, r) → Takes cs r

theorem scanBase_consumes : Consumes scanBase := by
  intro cs a r h
  cases cs with
  | nil => cases h
  | cons c cs =>
    rw [scanBase] at h
    split at h
    · exact .span (fun c => isLegal_of_isNameChar) (Except.ok.inj h)
    · cases h

theorem scanName_consumes : Consumes scanName := by
  intro cs a r h
  unfold scanName at h
  obtain ⟨⟨first, tail⟩, hb, h⟩ := bind_eq_ok_iff.mp h
  have htail := scanBase_consumes hb
  dsimp only at h
  split at h
  · rename_i more
    obtain ⟨⟨base, last⟩, hb2, h⟩ := bind_eq_ok_iff.mp h
    have hlast := scanBase_consumes hb2
    dsimp only at h
    split at h
    · cases h
    · obtain ⟨rfl, rfl⟩ := by simpa using h
      exact htail.trans (.char (by decide) hlast)
  · obtain ⟨rfl, rfl⟩ := by simpa using h
    exact htail

theorem scanNumber_consumes {isDigit : Char → Bool} (hdigit : ∀ c, isDigit c = true → isLegal c = true)
    (base : Nat) : Consumes (scanNumber isDigit base) := by
  intro cs a r h
  unfold scanNumber at h
  cases hs : cs.span isDigit with
  | mk digits tail =>
    have htail := Takes.span hdigit hs
    rw [hs] at h
    dsimp only at h
    split at h
    · cases h
    · split at h
      · obtain ⟨rfl, rfl⟩ := by simpa using h
        exact htail.trans (.char (by decide) (.done _))
      · cases h

theorem scanReference_consumes : Consumes scanReference := by
  intro cs a r h
  unfold scanReference at h
  split at h
  · exact .char (by decide) (.char (by decide)
      (scanNumber_consumes (fun c => isLegal_of_isHexDigit) 16 h))
  · exact .char (by decide) (scanNumber_consumes (fun c => isLegal_of_isDigit) 10 h)
  · obtain ⟨⟨name, tail⟩, hb, h⟩ := bind_eq_ok_iff.mp h
    have htail := scanBase_consumes hb
    dsimp only at h
    split at h
    · obtain ⟨rfl, rfl⟩ := by simpa using h
      exact htail.trans (.char (by decide) (.done _))
    · cases h

theorem scanComment_consumes : Consumes scanComment := by
  intro cs a r h
  fun_induction scanComment cs with
  | case2 cs =>
    obtain ⟨rfl, rfl⟩ := by simpa using h
    exact .append "-->".toList (by decide)
  | case4 c cs _ _ hc ih => exact .char hc (ih h)
  | case1 | case3 | case5 => cases h

theorem scanInstructionEnd_consumes : Consumes scanInstructionEnd := by
  intro cs a r h
  fun_induction scanInstructionEnd cs with
  | case2 cs =>
    obtain ⟨rfl, rfl⟩ := by simpa using h
    exact .append "?>".toList (by decide)
  | case3 c cs _ hc ih => exact .char hc (ih h)
  | case1 | case4 => cases h

theorem scanInstruction_consumes : Consumes scanInstruction := by
  intro cs a r h
  unfold scanInstruction at h
  obtain ⟨⟨target, tail⟩, hb, h⟩ := bind_eq_ok_iff.mp h
  have htail := scanBase_consumes hb
  dsimp only at h
  split at h
  · cases h
  · split at h
    · obtain ⟨rfl, rfl⟩ := by simpa using h
      exact htail.trans (.append "?>".toList (by decide))
    · cases h
    · split at h
      · rename_i hblank
        obtain ⟨⟨_, last⟩, hend, he⟩ := map_eq_ok_iff.mp h
        obtain ⟨rfl, rfl⟩ := by simpa using he
        exact htail.trans (.char (isLegal_of_isBlank hblank) (scanInstructionEnd_consumes hend))
      · cases h
    · cases h

theorem takeWhile_zip_eq {mark cs : List Char}
    (h : ((cs.zip mark).takeWhile fun p => p.1 == p.2).length = mark.length) :
    cs = mark ++ cs.drop mark.length := by
  induction mark generalizing cs with
  | nil => rfl
  | cons m mark ih =>
    cases cs with
    | nil => simp at h
    | cons c cs =>
      by_cases hc : c = m
      · simp [hc] at h
        simp [hc, ← ih h]
      · simp [hc] at h

theorem scanSectionOpen_consumes : Consumes scanSectionOpen := by
  intro cs a r h
  simp only [scanSectionOpen] at h
  split at h
  · cases h
  · split at h
    · rename_i hmatched
      obtain ⟨-, rfl⟩ := Prod.mk.inj (Except.ok.inj h)
      rw [hmatched]
      nth_rewrite 1 [takeWhile_zip_eq hmatched]
      exact .append _ (by decide)
    · cases h

theorem section_consumes : Consumes Content.section_ := by
  intro cs a r h
  fun_induction Content.section_ cs generalizing a with
  | case6 cs ih =>
    obtain ⟨⟨v, tail⟩, hv, he⟩ := map_eq_ok_iff.mp h
    obtain ⟨rfl, rfl⟩ := by simpa using he
    exact .char (by decide) (.char (by decide) (ih hv))
  | case7 cs _ _ ih =>
    obtain ⟨⟨v, tail⟩, hv, he⟩ := map_eq_ok_iff.mp h
    obtain ⟨rfl, rfl⟩ := by simpa using he
    exact .char (by decide) (ih hv)
  | case8 c cs _ _ _ _ _ _ hc ih =>
    obtain ⟨⟨v, tail⟩, hv, he⟩ := map_eq_ok_iff.mp h
    obtain ⟨rfl, rfl⟩ := by simpa using he
    exact .char hc (ih hv)
  | case2 =>
    obtain ⟨rfl, rfl⟩ := by simpa using h
    exact .append "]]>".toList (by decide)
  | case1 | case3 | case4 | case5 | case9 => cases h

theorem scanValue_consumes {quote : Char} (hquote : isLegal quote = true) :
    Consumes (scanValue quote) := by
  intro cs a r h
  induction cs generalizing a with
  | nil => cases h
  | cons c cs ih =>
    have hmap : isLegal c = true →
        ((scanValue quote cs).map fun r => (c :: r.1, r.2)) = .ok (a, r) → Takes (c :: cs) r := by
      intro hc hmap
      obtain ⟨⟨_, tail⟩, hv, he⟩ := map_eq_ok_iff.mp hmap
      obtain ⟨rfl, rfl⟩ := by simpa using he
      exact .char hc (ih hv)
    rw [scanValue] at h
    split at h
    · rename_i hc
      obtain ⟨rfl, rfl⟩ := by simpa using h
      exact .char (hc ▸ hquote) (.done _)
    · split at h
      · cases h
      · rename_i hlegal
        have hc : isLegal c = true := by
          simp only [Bool.or_eq_true, not_or, Bool.not_eq_true', Bool.not_eq_false] at hlegal
          exact hlegal.2
        split at h
        · split at h
          · exact hmap hc h
          · cases h
        · exact hmap hc h

theorem scanAttribute_consumes : Consumes scanAttribute := by
  intro cs a r h
  unfold scanAttribute at h
  obtain ⟨⟨name, tail⟩, hname, h⟩ := bind_eq_ok_iff.mp h
  have htail := (scanName_consumes hname).trans (.skipBlanks tail)
  dsimp only at h
  split at h
  · rename_i more hequals
    rw [hequals] at htail
    have hmore := htail.trans (.char (by decide) (.skipBlanks more))
    split at h
    · rename_i quote value hquote
      rw [hquote] at hmore
      split at h
      · rename_i hq
        obtain ⟨⟨v, last⟩, hv, h⟩ := bind_eq_ok_iff.mp h
        obtain ⟨rfl, rfl⟩ := by simpa using h
        have hlegal : isLegal quote = true := by
          simp only [Bool.or_eq_true, decide_eq_true_eq] at hq
          rcases hq with rfl | rfl <;> decide
        exact hmore.trans (.char hlegal (scanValue_consumes hlegal hv))
      · cases h
    · cases h
  · cases h

theorem scanTagEnd_consumes : Consumes scanTagEnd := by
  intro cs a r h
  unfold scanTagEnd at h
  split at h
  · obtain ⟨rfl, rfl⟩ := by simpa using h
    exact .char (by decide) (.done _)
  · obtain ⟨rfl, rfl⟩ := by simpa using h
    exact .append "/>".toList (by decide)
  · cases h
  · cases h

theorem scanAttributes_consumes (fuel : Nat) : Consumes (scanAttributes fuel) := by
  intro cs a r h
  induction fuel generalizing cs a with
  | zero => cases h
  | succ fuel ih =>
    cases cs with
    | nil => cases h
    | cons c tail =>
      simp only [scanAttributes] at h
      have hend : ∀ {ds : List Char} {found : List WrittenAttribute × Bool},
          ((scanTagEnd ds).map fun r => (([], r.1), r.2)) = .ok (found, r) → Takes ds r := by
        intro ds found hds
        obtain ⟨⟨_, last⟩, hend, he⟩ := map_eq_ok_iff.mp hds
        obtain ⟨rfl, rfl⟩ := by simpa using he
        exact scanTagEnd_consumes hend
      have hskip := Takes.skipBlanks (c :: tail)
      split at h
      · split at h
        · rename_i d after hd
          rw [hd] at hskip
          split at h
          · obtain ⟨⟨w, found⟩, hw, h⟩ := bind_eq_ok_iff.mp h
            obtain ⟨⟨⟨ws, e⟩, last⟩, hws, h⟩ := bind_eq_ok_iff.mp h
            obtain ⟨rfl, rfl⟩ := by simpa using h
            exact hskip.trans ((scanAttribute_consumes hw).trans (ih hws))
          · exact hskip.trans (hend h)
        · cases h
      · exact hend h

theorem scanOpeningTag_consumes : Consumes scanOpeningTag := by
  intro cs a r h
  unfold scanOpeningTag at h
  obtain ⟨⟨name, tail⟩, hname, h⟩ := bind_eq_ok_iff.mp h
  obtain ⟨⟨⟨ws, e⟩, last⟩, hws, h⟩ := bind_eq_ok_iff.mp h
  obtain ⟨rfl, rfl⟩ := by simpa using h
  exact (scanName_consumes hname).trans (scanAttributes_consumes _ hws)

theorem scanClosingTag_consumes : Consumes scanClosingTag := by
  intro cs a r h
  unfold scanClosingTag at h
  split at h
  · rename_i c tail
    split at h
    · cases hs : (c :: tail).span fun c => isNameChar c || c == ':' with
      | mk name after =>
        have hname : Takes (c :: tail) after := by
          refine .span (fun d hd => ?_) hs
          rcases Bool.or_eq_true_iff.mp hd with hd | hd
          · exact isLegal_of_isNameChar hd
          · obtain rfl := beq_iff_eq.mp hd
            decide
        have hskip := hname.trans (.skipBlanks after)
        rw [hs] at h
        dsimp only at h
        split at h
        · rename_i last hlast
          obtain ⟨rfl, rfl⟩ := by simpa using h
          rw [hlast] at hskip
          exact hskip.trans (.char (by decide) (.done _))
        · cases h
    · cases h
  · cases h

/-- A token takes a character at least. -/
theorem Content.isLegal_of_isPlain {c : Char} (h : isPlain c = true) : isLegal c = true := by
  simp only [isPlain, Bool.and_eq_true] at h
  exact h.1.1.1.1

theorem Content.token_takes {cs r : List Char} {t : Token} (h : token cs = .ok (t, r)) :
    ∃ c more, cs = c :: more ∧ isLegal c = true ∧ Takes more r := by
  cases token_eq_ok_iff.mp h with
  | closing h => exact ⟨_, _, rfl, by decide, .char (by decide) (scanClosingTag_consumes h)⟩
  | comment h =>
    exact ⟨_, _, rfl, by decide, (Takes.append "!--".toList (by decide)).trans
      (scanComment_consumes h)⟩
  | section_ hopen h =>
    exact ⟨_, _, rfl, by decide, (Takes.append "![".toList (by decide)).trans
      ((scanSectionOpen_consumes hopen).trans (section_consumes h))⟩
  | instruction h => exact ⟨_, _, rfl, by decide, .char (by decide) (scanInstruction_consumes h)⟩
  | opening _ h => exact ⟨_, _, rfl, by decide, scanOpeningTag_consumes h⟩
  | number h | standard h | entity h => exact ⟨_, _, rfl, by decide, scanReference_consumes h⟩
  | bracket | «return» => exact ⟨_, _, rfl, by decide, .done _⟩
  | lineEnd => exact ⟨_, _, rfl, by decide, .char (by decide) (.done _)⟩
  | @plain c cs hc =>
    refine ⟨c, cs, rfl, isLegal_of_isPlain hc, ?_⟩
    rw [List.dropWhile_cons_of_pos hc]
    exact .span (fun d hd => isLegal_of_isPlain hd) (List.span_eq_takeWhile_dropWhile ..)

theorem Content.token_length {cs r : List Char} {t : Token} (h : token cs = .ok (t, r)) :
    r.length < cs.length := by
  obtain ⟨c, more, rfl, -, htakes⟩ := token_takes h
  exact Nat.lt_succ_of_le htakes.length_le

end Localization.Xml
