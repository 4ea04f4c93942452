import Localization.Text

/-! Text that is written with characters alone. -/

namespace Localization

@[simp] theorem Text.ofChars_nil : Text.ofChars [] = [] := rfl

@[simp] theorem Text.ofChars_cons (c : Char) (cs : List Char) :
    Text.ofChars (c :: cs) = .char c :: Text.ofChars cs := rfl

@[simp] theorem Text.ofChars_append (cs ds : List Char) :
    Text.ofChars (cs ++ ds) = Text.ofChars cs ++ Text.ofChars ds := List.map_append

theorem Text.ofChars_injective : Function.Injective Text.ofChars :=
  fun _ _ h => (List.map_inj_right fun _ _ => CodePoint.char.inj).mp h

theorem Text.exists_of_ofChars_eq_append {cs a : List Char} {t : Text}
    (h : Text.ofChars cs = Text.ofChars a ++ t) : ∃ b, cs = a ++ b ∧ t = .ofChars b := by
  obtain ⟨a', b, rfl, ha, rfl⟩ := List.map_eq_append_iff.mp h
  obtain rfl : a' = a := Text.ofChars_injective ha
  exact ⟨b, rfl, rfl⟩

theorem range_of_isAlpha {c : Char} (h : c.isAlpha = true) : 0x41 ≤ c.toNat ∧ c.toNat < 0x7b := by
  have hval : c.toNat = c.val.toNat := rfl
  have hcases : (decide (65 ≤ c.val ∧ c.val ≤ 90) || decide (97 ≤ c.val) && decide (c.val ≤ 122)) =
      true := h
  simp only [Bool.or_eq_true, Bool.and_eq_true, decide_eq_true_eq, UInt32.le_iff_toNat_le,
    UInt32.reduceToNat] at hcases
  omega

theorem range_of_isDigit {c : Char} (h : c.isDigit = true) : 0x30 ≤ c.toNat ∧ c.toNat < 0x3a := by
  have hval : c.toNat = c.val.toNat := rfl
  have hboth : (decide (48 ≤ c.val) && decide (c.val ≤ 57)) = true := h
  simp only [Bool.and_eq_true, decide_eq_true_eq, UInt32.le_iff_toNat_le,
    UInt32.reduceToNat] at hboth
  omega

/-- The code point with the number of a character. -/
theorem CodePoint.ofNat?_char (c : Char) : ofNat? c.toNat = some (.char c) := by
  have hvalid : c.toNat.isValidChar := c.valid
  have hc := Char.ofNat_toNat c
  rw [Char.ofNat, dif_pos hvalid] at hc
  rw [ofNat?, dif_pos hvalid, hc]

theorem CodePoint.ofNat?_surrogate (m : Fin 2048) :
    ofNat? (0xD800 + m.val) = some (.surrogate m) := by
  have hinvalid : ¬ (0xD800 + m.val).isValidChar := by
    unfold Nat.isValidChar
    omega
  rw [ofNat?, dif_neg hinvalid, dif_pos (by omega)]
  simp

/-- A code point is told by its number. -/
theorem CodePoint.ofNat?_eq_some_iff {n : Nat} {p : CodePoint} :
    ofNat? n = some p ↔ p.toNat = n := by
  constructor
  · intro h
    by_cases hvalid : n.isValidChar
    · rw [ofNat?, dif_pos hvalid] at h
      obtain rfl := Option.some.inj h
      exact UInt32.toNat_ofNatLT ..
    rw [ofNat?, dif_neg hvalid] at h
    split at h
    · obtain rfl := Option.some.inj h
      simp only [toNat]
      omega
    · cases h
  · rintro rfl
    cases p with
    | char c => exact ofNat?_char c
    | surrogate m => exact ofNat?_surrogate m

theorem CodePoint.ofNat_toNat (p : CodePoint) : ofNat p.toNat = p := by
  rw [ofNat, ofNat?_eq_some_iff.mpr rfl, Option.getD_some]

/-- Only the numbers above U+10FFFF have no code point. -/
theorem CodePoint.ofNat?_eq_none_iff {n : Nat} : ofNat? n = none ↔ 0x10FFFF < n := by
  by_cases hvalid : n.isValidChar
  · rw [ofNat?, dif_pos hvalid]
    refine iff_of_false (Option.some_ne_none _) fun hlarge => ?_
    rcases hvalid with h | ⟨-, h⟩ <;> omega
  · rw [ofNat?, dif_neg hvalid]
    unfold Nat.isValidChar at hvalid
    split <;> simp <;> omega

end Localization
