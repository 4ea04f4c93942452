import Localization.Text.Utf8
import Mathlib.Data.List.Basic

/-! Characters that are encoded are decoded again, whatever follows them. -/

namespace Localization.Utf8

/-! What the first byte of each length says. -/

theorem lead?_one : ∀ n < 0x80, lead? (.ofNat n) = some ⟨0, 0x80, 0xBF, n⟩ := by
  decide +kernel

theorem lead?_two : ∀ k < 0x20, 2 ≤ k → lead? (.ofNat (0xC0 + k)) = some ⟨1, 0x80, 0xBF, k⟩ := by
  decide +kernel

theorem lead?_three : ∀ k < 0x10, lead? (.ofNat (0xE0 + k)) =
    some ⟨2, if k = 0 then 0xA0 else 0x80, if k = 0xD then 0x9F else 0xBF, k⟩ := by
  decide +kernel

theorem lead?_four : ∀ k < 5, lead? (.ofNat (0xF0 + k)) =
    some ⟨3, if k = 0 then 0x90 else 0x80, if k = 4 then 0x8F else 0xBF, k⟩ := by
  decide +kernel

/-- A byte with six bits of a number adds them to the bits before it, if it is one that may come
here. -/
theorem tailsFrom_tail {least most : UInt8} {m : Nat} (hleast : least.toNat ≤ 0x80 + m % 0x40)
    (hmost : 0x80 + m % 0x40 ≤ most.toNat) (bits count n : Nat) (bytes : List UInt8) :
    tailsFrom least most bits count (n + 1) (.ofNat (0x80 + m % 0x40) :: bytes) =
      tailsFrom 0x80 0xBF (bits * 0x40 + m % 0x40) (count + 1) n bytes := by
  have hbits : m % 0x40 < 0x40 := Nat.mod_lt m (by decide)
  have hbyte : (UInt8.ofNat (0x80 + m % 0x40)).toNat = 0x80 + m % 0x40 :=
    Nat.mod_eq_of_lt (by omega)
  have hbounds : least ≤ .ofNat (0x80 + m % 0x40) ∧ .ofNat (0x80 + m % 0x40) ≤ most := by
    rw [UInt8.le_iff_toNat_le, UInt8.le_iff_toNat_le, hbyte]
    exact ⟨hleast, hmost⟩
  rw [tailsFrom, if_pos hbounds, hbyte, Nat.add_sub_cancel_left]

/-- A tail of a sequence may be any byte with six bits. -/
theorem tailsFrom_any (bits count n m : Nat) (bytes : List UInt8) :
    tailsFrom 0x80 0xBF bits count (n + 1) (.ofNat (0x80 + m % 0x40) :: bytes) =
      tailsFrom 0x80 0xBF (bits * 0x40 + m % 0x40) (count + 1) n bytes := by
  have hbits : m % 0x40 < 0x40 := Nat.mod_lt m (by decide)
  exact tailsFrom_tail (Nat.le_add_right ..) (show _ ≤ 0xBF by omega) ..

/-- A character that is encoded is the next one. -/
theorem next_encodeChar (c : Char) (rest : List UInt8) :
    ∃ a bytes, encodeChar c = a :: bytes ∧ next a (bytes ++ rest) = .ok (c, rest) := by
  have hvalid : c.toNat < 0xD800 ∨ 0xDFFF < c.toNat ∧ c.toNat < 0x110000 := c.valid
  have hchar : c = Char.ofNat c.toNat := (Char.ofNat_toNat c).symm
  unfold encodeChar
  generalize c.toNat = n at hchar hvalid
  subst hchar
  have hbits (m : Nat) : m / 0x40 * 0x40 + m % 0x40 = m := Nat.div_add_mod' m 0x40
  dsimp only
  split
  · rename_i hone
    refine ⟨_, _, rfl, ?_⟩
    rw [next, lead?_one n hone]
    rfl
  split
  · refine ⟨_, _, rfl, ?_⟩
    rw [next, lead?_two (n / 0x40) (by omega) (by omega)]
    dsimp only
    rw [List.cons_append, tailsFrom_any, hbits]
    rfl
  split
  · refine ⟨_, _, rfl, ?_⟩
    have hhigh : n / 0x40 / 0x40 = n / 0x1000 := Nat.div_div_eq_div_mul n 0x40 0x40
    rw [next, lead?_three (n / 0x1000) (by omega)]
    dsimp only
    rw [List.cons_append, tailsFrom_tail (m := n / 0x40), List.cons_append, tailsFrom_any, ← hhigh,
      hbits, hbits]
    · rfl
    · split
      · exact show 0xA0 ≤ _ by omega
      · exact show 0x80 ≤ _ by omega
    · split
      · exact show _ ≤ 0x9F by omega
      · exact show _ ≤ 0xBF by omega
  · refine ⟨_, _, rfl, ?_⟩
    have hmiddle : n / 0x40 / 0x40 = n / 0x1000 := Nat.div_div_eq_div_mul n 0x40 0x40
    have hhigh : n / 0x1000 / 0x40 = n / 0x40000 := Nat.div_div_eq_div_mul n 0x1000 0x40
    rw [next, lead?_four (n / 0x40000) (by omega)]
    dsimp only
    rw [List.cons_append, tailsFrom_tail (m := n / 0x1000), List.cons_append, tailsFrom_any,
      List.cons_append, tailsFrom_any, ← hhigh, hbits, ← hmiddle, hbits, hbits]
    · rfl
    · split
      · exact show 0x90 ≤ _ by omega
      · exact show 0x80 ≤ _ by omega
    · split
      · exact show _ ≤ 0x8F by omega
      · exact show _ ≤ 0xBF by omega

theorem encode_append (a b : List Char) : encode (a ++ b) = encode a ++ encode b :=
  List.flatMap_append

theorem encode_cons (c : Char) (cs : List Char) : encode (c :: cs) = encodeChar c ++ encode cs :=
  List.flatMap_cons

section Decoding

variable {α : Type} (keep : Char → α) (repair : Repair α)

theorem decodeFrom_encode (size : Nat) {fuel : Nat} (before : List α) (cs : List Char)
    (hfuel : cs.length ≤ fuel) :
    decodeFrom keep repair size fuel before (encode cs) = .ok (before.reverse ++ cs.map keep) := by
  induction cs generalizing fuel before with
  | nil => cases fuel <;> simp [encode, decodeFrom]
  | cons c cs ih =>
    obtain ⟨fuel, rfl⟩ := Nat.exists_eq_add_one.mpr (Nat.zero_lt_of_lt hfuel)
    obtain ⟨a, bytes, hbytes, hnext⟩ := next_encodeChar c (encode cs)
    rw [encode_cons, hbytes, List.cons_append, decodeFrom, hnext]
    dsimp only
    rw [ih (keep c :: before) (Nat.le_of_succ_le_succ hfuel)]
    simp

theorem length_le_encode (cs : List Char) : cs.length ≤ (encode cs).length := by
  induction cs with
  | nil => exact Nat.le_refl 0
  | cons c cs ih =>
    obtain ⟨a, bytes, hbytes, -⟩ := next_encodeChar c []
    rw [encode_cons, hbytes]
    simp
    omega

/-- What is encoded is decoded again, whatever would stand for bytes that are part of no character. -/
theorem decodeWith_encode (cs : List Char) :
    decodeWith keep repair (encode cs) = .ok (cs.map keep) :=
  decodeFrom_encode keep repair _ [] cs (length_le_encode cs)

end Decoding

theorem decode_encode (cs : List Char) : decode (encode cs) = .ok cs :=
  (decodeWith_encode id _ cs).trans (congrArg _ (List.map_id cs))

theorem decodeText_encode (cs : List Char) : decodeText (encode cs) = .ok (.ofChars cs) :=
  decodeWith_encode CodePoint.char _ cs

end Localization.Utf8
