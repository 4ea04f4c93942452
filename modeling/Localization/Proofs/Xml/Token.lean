import Localization.Proofs.Result
import Localization.Proofs.Runs
import Localization.Xml.Token

/-! What is read of a text is read in the same way whatever follows the text, if the reading came to
an end before the end of the text. -/

namespace Localization.Xml

/-- What an item that is read does not depend on what stands after the text. -/
def Local {ε α : Type} (scan : List Char → Except ε (Scanned α)) : Prop :=
  ∀ {cs : List Char} {a : α} {r : List Char}, scan cs = .ok (a, r) →
    ∀ rest, scan (cs ++ rest) = .ok (a, r ++ rest)

theorem head?_append_of_ne_nil {r : List Char} (hr : r ≠ []) (rest : List Char) :
    (r ++ rest).head? = r.head? := by
  obtain ⟨c, r, rfl⟩ := List.exists_cons_of_ne_nil hr
  rfl

/-- A run that ends before the end of the text ends there whatever follows. -/
theorem span_append {p : Char → Bool} {cs n r : List Char} (h : cs.span p = (n, r)) (hr : r ≠ [])
    (rest : List Char) : (cs ++ rest).span p = (n, r ++ rest) := by
  obtain ⟨run, tail, rfl, hrun, htail⟩ := exists_run p cs
  rw [span_run hrun htail] at h
  obtain ⟨rfl, rfl⟩ := Prod.mk.inj h
  rw [List.append_assoc]
  exact span_run hrun (by rwa [head?_append_of_ne_nil hr])

theorem scanBase_append {cs n r : List Char} (h : scanBase cs = .ok (n, r)) (hr : r ≠ [])
    (rest : List Char) : scanBase (cs ++ rest) = .ok (n, r ++ rest) := by
  cases cs with
  | nil => cases h
  | cons c cs =>
    rw [scanBase] at h
    split at h
    · rename_i hc
      rw [List.cons_append, scanBase, if_pos hc, ← List.cons_append,
        span_append (Except.ok.inj h) hr rest]
    · cases h

theorem scanName_append {cs r : List Char} {n : Name} (h : scanName cs = .ok (n, r)) (hr : r ≠ [])
    (rest : List Char) : scanName (cs ++ rest) = .ok (n, r ++ rest) := by
  unfold scanName at h ⊢
  cases hb : scanBase cs with
  | error e => rw [hb] at h; cases h
  | ok found =>
    obtain ⟨first, tail⟩ := found
    rw [hb] at h
    simp only [bind, Except.bind] at h
    have htail : tail ≠ [] := by
      rintro rfl
      obtain ⟨rfl, rfl⟩ := by simpa using h
      exact hr rfl
    rw [scanBase_append hb htail rest]
    simp only [bind, Except.bind]
    split at h
    · rename_i more
      cases hb2 : scanBase more with
      | error e => rw [hb2] at h; cases h
      | ok found =>
        obtain ⟨base, last⟩ := found
        rw [hb2] at h
        dsimp only at h
        have hlast : last ≠ [] := by
          rintro rfl
          obtain ⟨rfl, rfl⟩ := by simpa using h
          exact hr rfl
        obtain ⟨c, last, rfl⟩ := List.exists_cons_of_ne_nil hlast
        simp only [List.cons_append, scanBase_append hb2 hlast rest]
        split at h
        · cases h
        · rename_i hc
          obtain ⟨rfl, rfl⟩ := by simpa using h
          split
          · rename_i hcc
            simp at hcc
            simp [hcc] at hc
          · rfl
    · rename_i hc
      obtain ⟨rfl, rfl⟩ := by simpa using h
      obtain ⟨c, tail, rfl⟩ := List.exists_cons_of_ne_nil htail
      simp only [List.cons_append]
      split
      · rename_i hcc
        obtain ⟨rfl, -⟩ := by simpa using hcc
        exact absurd rfl (hc tail)
      · rfl

theorem scanNumber_local (isDigit : Char → Bool) (base : Nat) :
    Local (scanNumber isDigit base) := by
  intro cs a r h rest
  unfold scanNumber at h ⊢
  cases hs : cs.span isDigit with
  | mk digits tail =>
    rw [hs] at h
    dsimp only at h
    split at h
    · cases h
    · rename_i hd
      split at h
      · rename_i more
        obtain ⟨rfl, rfl⟩ := by simpa using h
        rw [span_append hs (by simp) rest]
        simp [hd]
      · cases h

theorem scanReference_local : Local scanReference := by
  intro cs a r h rest
  unfold scanReference at h
  split at h
  · exact scanNumber_local _ _ h rest
  · rename_i more hx
    rw [List.cons_append, scanReference]
    · exact scanNumber_local _ _ h rest
    · rintro tail htail
      cases more with
      | nil => cases h
      | cons c more =>
        obtain ⟨rfl, -⟩ := by simpa using htail
        exact hx more rfl
  · rename_i hx hd
    cases hb : scanBase cs with
    | error e => rw [hb] at h; cases h
    | ok found =>
      obtain ⟨name, tail⟩ := found
      rw [hb] at h
      simp only [bind, Except.bind] at h
      split at h
      · rename_i more
        obtain ⟨rfl, rfl⟩ := by simpa using h
        cases cs with
        | nil => cases hb
        | cons c cs =>
          have hc : c ≠ '#' := by
            rintro rfl
            exact hd cs rfl
          rw [scanReference, scanBase_append hb (by simp) rest]
          · rfl
          all_goals simp [hc]
      · cases h

theorem scanComment_local : Local scanComment := by
  intro cs a r h rest
  fun_induction scanComment cs with
  | case1 => cases h
  | case2 cs =>
    obtain ⟨rfl, rfl⟩ := by simpa using h
    rfl
  | case3 => cases h
  | case4 c cs _ hdashes hc ih =>
    have hdashes : ∀ tail, c = '-' → cs ++ rest = '-' :: tail → False := by
      intro tail hdash htail
      cases cs with
      | nil => cases h
      | cons d cs =>
        obtain ⟨rfl, -⟩ := by simpa using htail
        exact hdashes cs hdash rfl
    rw [List.cons_append, scanComment, if_pos hc, ih h]
    · exact fun tail hdash htail => hdashes _ hdash htail
    · exact hdashes
  | case5 => cases h

theorem scanInstructionEnd_local : Local scanInstructionEnd := by
  intro cs a r h rest
  fun_induction scanInstructionEnd cs with
  | case1 => cases h
  | case2 cs =>
    obtain ⟨rfl, rfl⟩ := by simpa using h
    rfl
  | case3 c cs hclose hc ih =>
    rw [List.cons_append, scanInstructionEnd, if_pos hc, ih h]
    intro tail hmark htail
    cases cs with
    | nil => cases h
    | cons d cs =>
      obtain ⟨rfl, -⟩ := by simpa using htail
      exact hclose cs hmark rfl
  | case4 => cases h

theorem scanInstruction_local : Local scanInstruction := by
  intro cs a r h rest
  unfold scanInstruction at h ⊢
  obtain ⟨⟨target, tail⟩, hb, h⟩ := bind_eq_ok_iff.mp h
  have htail : tail ≠ [] := by
    rintro rfl
    dsimp only at h
    split at h <;> cases h
  rw [scanBase_append hb htail rest]
  simp only [bind, Except.bind]
  dsimp only at h
  split at h
  · cases h
  · rename_i ht
    rw [if_neg ht]
    split at h
    · obtain ⟨rfl, rfl⟩ := by simpa using h
      rfl
    · cases h
    · rename_i c more _ hmark
      have hc : c ≠ '?' := by
        rintro rfl
        exact hmark rfl
      split at h
      · rename_i hblank
        obtain ⟨⟨_, last⟩, hend, he⟩ := map_eq_ok_iff.mp h
        obtain ⟨rfl, rfl⟩ := by simpa using he
        have hend := scanInstructionEnd_local hend rest
        simp [hc, hblank, hend, Except.map]
      · cases h
    · cases h

theorem scanSectionOpen_local : Local scanSectionOpen := by
  intro cs a r h rest
  have hmark : "CDATA[".toList = ['C', 'D', 'A', 'T', 'A', '['] := rfl
  match cs with
  | [] | [_] | [_, _] | [_, _, _] | [_, _, _, _] | [_, _, _, _, _] => cases h
  | c1 :: c2 :: c3 :: c4 :: c5 :: c6 :: cs =>
    have hlen : ∀ n, ¬ (n + 1 + 1 + 1 + 1 + 1 + 1 < 6) := by omega
    simp only [scanSectionOpen, hmark, List.length_cons, List.length_nil, hlen, if_false,
      List.zip_cons_cons, List.zip_nil_right, List.cons_append] at h ⊢
    split at h
    · rename_i hm
      obtain ⟨rfl, rfl⟩ := by simpa using h
      simp [hm]
    · cases h

theorem scanValue_local (quote : Char) : Local (scanValue quote) := by
  intro cs a r h rest
  induction cs generalizing a with
  | nil => cases h
  | cons c cs ih =>
    rw [scanValue] at h
    rw [List.cons_append, scanValue]
    split at h
    · rename_i hc
      obtain ⟨rfl, rfl⟩ := by simpa using h
      rw [if_pos hc]
    · rename_i hq
      rw [if_neg hq]
      split at h
      · cases h
      · rename_i hl
        rw [if_neg hl]
        split at h
        · rename_i ha
          rw [if_pos ha]
          split at h
          · rename_i found hfound
            obtain ⟨⟨v, tail⟩, hv, he⟩ := map_eq_ok_iff.mp h
            obtain ⟨rfl, rfl⟩ := by simpa using he
            obtain ⟨reference, after⟩ := found
            rw [scanReference_local hfound rest, ih hv]
            rfl
          · cases h
        · rename_i ha
          obtain ⟨⟨v, tail⟩, hv, he⟩ := map_eq_ok_iff.mp h
          obtain ⟨rfl, rfl⟩ := by simpa using he
          rw [if_neg ha, ih hv]
          rfl

theorem skipBlanks_append {cs r : List Char} (h : skipBlanks cs = r) (hr : r ≠ [])
    (rest : List Char) : skipBlanks (cs ++ rest) = r ++ rest := by
  obtain ⟨run, tail, rfl, hrun, htail⟩ := exists_run isBlank cs
  rw [skipBlanks, dropWhile_run hrun htail] at h
  subst h
  rw [List.append_assoc, skipBlanks]
  exact dropWhile_run hrun (by rwa [head?_append_of_ne_nil hr])

def WrittenAttribute.pair (a : WrittenAttribute) : Name × List Char := (a.name, a.value)

theorem scanAttribute_append {cs r : List Char} {w : WrittenAttribute}
    (h : scanAttribute cs = .ok (w, r)) (rest : List Char) :
    ∃ w', scanAttribute (cs ++ rest) = .ok (w', r ++ rest) ∧ w'.pair = w.pair := by
  unfold scanAttribute at h ⊢
  obtain ⟨⟨name, tail⟩, hname, h⟩ := bind_eq_ok_iff.mp h
  have htail : tail ≠ [] := by
    rintro rfl
    cases h
  rw [scanName_append hname htail rest]
  simp only [bind, Except.bind]
  dsimp only at h
  split at h
  · rename_i more hequals
    simp only [skipBlanks_append hequals (by simp) rest, List.cons_append]
    split at h
    · rename_i quote value hquote
      simp only [skipBlanks_append hquote (by simp) rest, List.cons_append]
      split at h
      · rename_i hq
        obtain ⟨⟨v, last⟩, hv, h⟩ := bind_eq_ok_iff.mp h
        obtain ⟨rfl, rfl⟩ := by simpa using h
        rw [if_pos hq, scanValue_local quote hv rest]
        exact ⟨_, rfl, rfl⟩
      · cases h
    · cases h
  · cases h

theorem scanTagEnd_local : Local scanTagEnd := by
  intro cs a r h rest
  unfold scanTagEnd at h
  split at h
  · obtain ⟨rfl, rfl⟩ := by simpa using h
    rfl
  · obtain ⟨rfl, rfl⟩ := by simpa using h
    rfl
  · cases h
  · cases h

theorem scanAttributes_append {fuel : Nat} {cs r : List Char} {ws : List WrittenAttribute}
    {e : Bool} (h : scanAttributes fuel cs = .ok ((ws, e), r)) (more : Nat) (hmore : fuel ≤ more)
    (rest : List Char) : ∃ ws', scanAttributes more (cs ++ rest) = .ok ((ws', e), r ++ rest) ∧
      ws'.map WrittenAttribute.pair = ws.map WrittenAttribute.pair := by
  induction fuel generalizing cs ws more with
  | zero => cases h
  | succ fuel ih =>
    obtain ⟨more, rfl⟩ := Nat.exists_eq_add_one.mpr (Nat.lt_of_lt_of_le (Nat.succ_pos fuel) hmore)
    cases cs with
    | nil => cases h
    | cons c tail =>
      simp only [scanAttributes, List.cons_append] at h ⊢
      split at h
      · rename_i hc
        rw [if_pos hc]
        split at h
        · rename_i d after hskip
          simp only [← List.cons_append, skipBlanks_append hskip (by simp) rest]
          simp only [List.cons_append]
          split at h
          · rename_i hd
            obtain ⟨⟨a, found⟩, ha, h⟩ := bind_eq_ok_iff.mp h
            obtain ⟨⟨⟨as, _⟩, last⟩, has, h⟩ := bind_eq_ok_iff.mp h
            obtain ⟨⟨rfl, rfl⟩, rfl⟩ := by simpa using h
            obtain ⟨a', ha', hpair⟩ := scanAttribute_append ha rest
            obtain ⟨as', has', hpairs⟩ := ih has more (by omega)
            rw [if_pos hd]
            simp only [List.cons_append] at ha'
            simp only [ha', has', bind, Except.bind]
            exact ⟨_, rfl, by simp [hpair, hpairs]⟩
          · rename_i hd
            obtain ⟨⟨_, last⟩, hend, he⟩ := map_eq_ok_iff.mp h
            obtain ⟨⟨rfl, rfl⟩, rfl⟩ := by simpa using he
            have hend := scanTagEnd_local hend rest
            rw [List.cons_append] at hend
            rw [if_neg hd, hend]
            exact ⟨_, rfl, rfl⟩
        · cases h
      · rename_i hc
        obtain ⟨⟨_, last⟩, hend, he⟩ := map_eq_ok_iff.mp h
        obtain ⟨⟨rfl, rfl⟩, rfl⟩ := by simpa using he
        have hend := scanTagEnd_local hend rest
        rw [List.cons_append] at hend
        rw [if_neg hc, hend]
        exact ⟨_, rfl, rfl⟩

/-- What an opening tag says, wherever it is written. -/
def OpeningTag.shape (t : OpeningTag) : Name × List (Name × List Char) × Bool :=
  (t.name, t.attributes.map WrittenAttribute.pair, t.isEmpty)

theorem OpeningTag.isEmpty_of_shape {t t' : OpeningTag} (h : t'.shape = t.shape) :
    t'.isEmpty = t.isEmpty := congrArg (·.2.2) h

theorem scanOpeningTag_append {cs r : List Char} {t : OpeningTag}
    (h : scanOpeningTag cs = .ok (t, r)) (rest : List Char) :
    ∃ t', scanOpeningTag (cs ++ rest) = .ok (t', r ++ rest) ∧ t'.shape = t.shape := by
  unfold scanOpeningTag at h ⊢
  obtain ⟨⟨name, tail⟩, hname, h⟩ := bind_eq_ok_iff.mp h
  obtain ⟨⟨⟨ws, e⟩, last⟩, hws, h⟩ := bind_eq_ok_iff.mp h
  obtain ⟨rfl, rfl⟩ := by simpa using h
  have htail : tail ≠ [] := by
    rintro rfl
    cases hws
  obtain ⟨ws', hws', hpairs⟩ :=
    scanAttributes_append hws ((tail ++ rest).length + 1) (by simp) rest
  rw [scanName_append hname htail rest]
  simp only [bind, Except.bind]
  rw [hws']
  exact ⟨_, rfl, by simp [OpeningTag.shape, hpairs]⟩

theorem scanClosingTag_local : Local scanClosingTag := by
  intro cs a r h rest
  unfold scanClosingTag at h ⊢
  split at h
  · rename_i c tail
    rw [List.cons_append]
    dsimp only
    split at h
    · rename_i hc
      rw [if_pos hc]
      cases hs : (c :: tail).span fun c => isNameChar c || c == ':' with
      | mk name after =>
        rw [hs] at h
        dsimp only at h
        split at h
        · rename_i last hskip
          obtain ⟨rfl, rfl⟩ := by simpa using h
          have hafter : after ≠ [] := by
            rintro rfl
            cases hskip
          rw [← List.cons_append, span_append hs hafter rest]
          dsimp only
          rw [skipBlanks_append hskip (by simp) rest]
          rfl
        · cases h
    · cases h
  · cases h

end Localization.Xml
