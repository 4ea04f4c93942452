import Localization.Json
import Localization.Proofs.Text
import Mathlib.Algebra.Order.Field.Rat
import Mathlib.Tactic.NormNum
import Mathlib.Tactic.Positivity

/-! A number counts as zero exactly if its value rounds to zero: to nearest, and to even between two
doubles. -/

namespace Localization

theorem natOfDigits_concat (ds : List Char) (c : Char) :
    natOfDigits (ds ++ [c]) = 10 * natOfDigits ds + (c.toNat - 48) := by
  simp [natOfDigits]

theorem natOfDigits_lt {ds : List Char} (h : ∀ c ∈ ds, c.isDigit = true) :
    natOfDigits ds < 10 ^ ds.length := by
  induction ds using List.reverseRecOn with
  | nil => decide
  | append_singleton ds c ih =>
    obtain ⟨hds, hc⟩ := List.forall_mem_append.mp h
    have hlt := ih hds
    obtain ⟨-, hdigit⟩ := range_of_isDigit (hc c (List.mem_singleton_self c))
    rw [natOfDigits_concat, List.length_append, List.length_singleton, pow_succ]
    omega

namespace Decimal

/-- The value of a number before it is rounded. -/
def value (d : Decimal) : ℚ := natOfDigits d.digits * 10 ^ d.scale

/-- Half of the least positive double. Numbers up to this one round to zero. -/
def half : ℚ := 1 / 2 ^ 1075

/-- That the digits are counted first only saves the work of computing a large power. -/
theorem vanishes_iff {n count : Nat} (h : n < 10 ^ count) (places : Nat) :
    vanishes n count places = true ↔ n * 2 ^ 1075 ≤ 10 ^ places := by
  rw [vanishes, Nat.shiftLeft_eq, Nat.pow_eq, Bool.or_eq_true, decide_eq_true_eq, decide_eq_true_eq,
    or_iff_right_iff_imp]
  intro hcount
  have hpower : 2 ^ 1075 ≤ 10 ^ 324 := by decide +kernel
  calc n * 2 ^ 1075
      ≤ 10 ^ count * 10 ^ 324 := Nat.mul_le_mul h.le hpower
    _ = 10 ^ (count + 324) := (pow_add ..).symm
    _ ≤ 10 ^ places := Nat.pow_le_pow_right (by decide) hcount

theorem natCast_le_half {n : Nat} : (n : ℚ) ≤ half ↔ n = 0 := by
  constructor
  · intro h
    have hlt : half < 1 := by
      rw [half, one_div]
      exact inv_lt_one_of_one_lt₀ (one_lt_pow₀ (by norm_num) (by decide))
    exact Nat.lt_one_iff.mp (by exact_mod_cast h.trans_lt hlt)
  · rintro rfl
    rw [half, Nat.cast_zero]
    positivity

theorem isZero_iff {d : Decimal} (h : ∀ c ∈ d.digits, c.isDigit = true) :
    d.isZero = true ↔ d.digits ≠ [] ∧ d.value ≤ half := by
  have hlt := natOfDigits_lt h
  obtain ⟨digits, scale⟩ := d
  simp only [isZero, value, Bool.and_eq_true, Bool.not_eq_true', List.isEmpty_eq_false_iff,
    Bool.or_eq_true, beq_iff_eq, decide_eq_true_eq, vanishes_iff hlt]
  refine and_congr_right fun _ => ?_
  generalize natOfDigits digits = n
  cases scale with
  | ofNat places =>
    have hvalue : (n : ℚ) * 10 ^ Int.ofNat places = (n * 10 ^ places : Nat) := by
      simp [zpow_natCast]
    have hpower : 10 ^ places ≠ 0 := by positivity
    have hscale : ¬ Int.ofNat places < 0 := Int.not_lt.mpr (Int.natCast_nonneg places)
    rw [hvalue, natCast_le_half, Nat.mul_eq_zero, or_iff_left hpower,
      or_iff_left fun h => hscale h.1]
  | negSucc places =>
    have hvalue : (n : ℚ) * 10 ^ Int.negSucc places = n / 10 ^ (places + 1) := by
      rw [zpow_negSucc, div_eq_mul_inv]
    have hpos : (0 : ℚ) < 10 ^ (places + 1) := by positivity
    have hle : (n : ℚ) / 10 ^ (places + 1) ≤ half ↔ n * 2 ^ 1075 ≤ 10 ^ (places + 1) := by
      rw [half, div_le_div_iff₀ hpos (by positivity), one_mul]
      norm_cast
    rw [hvalue, hle]
    constructor
    · rintro (rfl | ⟨-, hsmall⟩)
      · rw [zero_mul]
        exact Nat.zero_le _
      · exact hsmall
    · exact fun hsmall => .inr ⟨Int.negSucc_lt_zero places, hsmall⟩

end Decimal

/-- A number that characters write is present, unless its value rounds to zero. One without digits
is an infinity or none, and present. -/
theorem Json.isPresent_decimal_iff (cs : List Char) :
    (Json.decimal cs).isPresent = true ↔
      (Decimal.ofChars cs).digits = [] ∨ Decimal.half < (Decimal.ofChars cs).value := by
  have hdigits : ∀ c ∈ (Decimal.ofChars cs).digits, c.isDigit = true := fun c hc =>
    (List.mem_filter.mp hc).2
  rw [isPresent, Bool.not_eq_true', ← Bool.not_eq_true, Decimal.isZero_iff hdigits, not_and_or,
    not_not, not_le]

example : (Json.decimal "1e-400".toList).isPresent = false := by decide +kernel

example : (Json.decimal "1e-323".toList).isPresent = true := by decide +kernel

end Localization
