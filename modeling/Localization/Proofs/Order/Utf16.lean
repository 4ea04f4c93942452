import Localization.Proofs.Order
import Localization.Proofs.Text
import Mathlib.Order.Defs.Unbundled

/-! The order of texts by their code units is that of the bytes of those units, the byte with the
high bits first. Main statement: among texts of characters it is a strict total order in which a
proper beginning comes first, and else the first two characters that differ decide. Those above
U+FFFF begin with a surrogate, so they come before U+E000 to U+FFFF. -/

namespace Localization

/-- The bytes of a code unit, the one with the high bits first. -/
def unitBytes (u : Nat) : List UInt8 := [.ofNat (u / 0x100), .ofNat u]

/-- The bytes of the UTF-16 code units of a text. -/
def Text.bytes16 (t : Text) : List UInt8 := t.units16.flatMap unitBytes

/-- A character comes before another by its code units: its number is less, except that the
characters above U+FFFF come before those from U+E000 on that have one unit. -/
def Precedes16 (c d : Char) : Prop :=
  c.toNat < d.toNat ∧ ¬ ((0xE000 ≤ c.toNat ∧ c.toNat ≤ 0xFFFF) ∧ 0x10000 ≤ d.toNat) ∨
    0x10000 ≤ c.toNat ∧ 0xE000 ≤ d.toNat ∧ d.toNat ≤ 0xFFFF

/-! The order of a dictionary. -/

/-- A list does not come after another if its first unit is less, or its other units do not. -/
theorem dictionaryLe_cons_eq_false_iff {u v : Nat} {us vs : List Nat} :
    dictionaryLe (v :: vs) (u :: us) = false ↔ u < v ∨ u = v ∧ dictionaryLe vs us = false := by
  simp only [dictionaryLe, Bool.or_eq_false_iff, Bool.and_eq_false_iff, decide_eq_false_iff_not,
    beq_eq_false_iff_ne]
  rcases Nat.lt_trichotomy u v with hlt | rfl | hgt
  · exact iff_of_true ⟨Nat.lt_asymm hlt, .inl (Nat.ne_of_gt hlt)⟩ (.inl hlt)
  · simp
  · exact iff_of_false (fun h => h.1 hgt) (by omega)

/-- What two lists begin with alike does not decide. -/
theorem dictionaryLe_append (us as bs : List Nat) :
    dictionaryLe (us ++ as) (us ++ bs) = dictionaryLe as bs := by
  induction us with
  | nil => rfl
  | cons u us ih => simp [dictionaryLe, ih]

/-- A list comes after its proper beginnings. -/
theorem dictionaryLe_append_cons (us vs : List Nat) (v : Nat) :
    dictionaryLe (us ++ v :: vs) us = false := by
  have h := dictionaryLe_append us (v :: vs) []
  rwa [List.append_nil] at h

/-! Bytes of units. -/

/-- The bytes of two units decide as the units do, whatever follows them. -/
theorem unitBytes_append_lt_iff {u v : Nat} (hu : u < 0x10000) (hv : v < 0x10000)
    (s t : List UInt8) : unitBytes u ++ s < unitBytes v ++ t ↔ u < v ∨ u = v ∧ s < t := by
  have hhigh : u / 0x100 % 2 ^ 8 = u / 0x100 := Nat.mod_eq_of_lt (by omega)
  have hhigh' : v / 0x100 % 2 ^ 8 = v / 0x100 := Nat.mod_eq_of_lt (by omega)
  simp only [unitBytes, List.cons_append, List.nil_append, List.cons_lt_cons_iff,
    UInt8.lt_iff_toNat_lt, ← UInt8.toNat_inj, UInt8.toNat_ofNat', hhigh, hhigh']
  by_cases hst : s < t
  · simp only [hst, and_true]
    omega
  · simp only [hst, and_false, or_false]
    omega

/-- Lists of units are in the order of their bytes. -/
theorem flatMap_unitBytes_lt_iff {us vs : List Nat} (hus : ∀ u ∈ us, u < 0x10000)
    (hvs : ∀ v ∈ vs, v < 0x10000) :
    us.flatMap unitBytes < vs.flatMap unitBytes ↔ dictionaryLe vs us = false := by
  induction us generalizing vs with
  | nil =>
    cases vs with
    | nil => exact iff_of_false (List.lt_irrefl _) (by decide)
    | cons v vs => exact iff_of_true (List.nil_lt_cons _ _) rfl
  | cons u us ih =>
    cases vs with
    | nil => exact iff_of_false (List.not_lt_nil _) (by simp [dictionaryLe])
    | cons v vs =>
      obtain ⟨hu, hus⟩ := List.forall_mem_cons.mp hus
      obtain ⟨hv, hvs⟩ := List.forall_mem_cons.mp hvs
      rw [List.flatMap_cons, List.flatMap_cons, unitBytes_append_lt_iff hu hv, ih hus hvs,
        dictionaryLe_cons_eq_false_iff]

theorem CodePoint.lt_of_mem_units16 {p : CodePoint} {u : Nat} (h : u ∈ p.units16) :
    u < 0x10000 := by
  rcases p.units16_cases with ⟨hlt, hone⟩ | ⟨m, n, hm, hn, -, htwo⟩
  · rw [hone, List.mem_singleton] at h
    omega
  · simp only [htwo, List.mem_cons, List.not_mem_nil, or_false] at h
    omega

namespace Text

theorem lt_of_mem_units16 {t : Text} {u : Nat} (h : u ∈ t.units16) : u < 0x10000 := by
  obtain ⟨p, -, hp⟩ := List.mem_flatMap.mp h
  exact CodePoint.lt_of_mem_units16 hp

theorem bytes16_lt_iff {a b : Text} : a.bytes16 < b.bytes16 ↔ b.le16 a = false :=
  flatMap_unitBytes_lt_iff (fun _ => lt_of_mem_units16) fun _ => lt_of_mem_units16

/-- Texts are in the order of their bytes. -/
theorem le16_iff {a b : Text} : a.le16 b = true ↔ a.bytes16 ≤ b.bytes16 := by
  rw [← List.not_lt, bytes16_lt_iff, Bool.not_eq_false]

/-! Texts of characters. -/

/-- Texts of characters of which none comes before the other are the same. -/
theorem eq_of_not_bytes16_lt {cs ds : List Char}
    (hcd : ¬ (ofChars cs).bytes16 < (ofChars ds).bytes16)
    (hdc : ¬ (ofChars ds).bytes16 < (ofChars cs).bytes16) : cs = ds := by
  rw [bytes16_lt_iff, Bool.not_eq_false] at hcd hdc
  exact ofChars_injective
    ((joined_ofChars cs).eq_of_units16 (joined_ofChars ds) (units16_eq_of_le16 hdc hcd))

theorem units16_ofChars_append (cs ds : List Char) :
    (ofChars (cs ++ ds)).units16 = (ofChars cs).units16 ++ (ofChars ds).units16 := by
  rw [ofChars_append, units16, List.flatMap_append]
  rfl

theorem bytes16_lt_append_cons (cs ds : List Char) (d : Char) :
    (ofChars cs).bytes16 < (ofChars (cs ++ d :: ds)).bytes16 := by
  obtain ⟨u, us, hus⟩ : ∃ u us, (ofChars (d :: ds)).units16 = u :: us := by
    rw [ofChars_cons, units16, List.flatMap_cons]
    rcases (CodePoint.char d).units16_cases with ⟨-, hd⟩ | ⟨m, n, -, -, -, hd⟩
    · exact ⟨_, _, by rw [hd, List.singleton_append]⟩
    · exact ⟨_, _, by rw [hd, List.cons_append]⟩
  rw [bytes16_lt_iff, le16, units16_ofChars_append, hus, dictionaryLe_append_cons]

/-- The units of two characters that differ decide, whatever follows them. -/
theorem dictionaryLe_units16_append {c d : Char} (hne : c ≠ d) (us vs : List Nat) :
    dictionaryLe ((CodePoint.char d).units16 ++ vs) ((CodePoint.char c).units16 ++ us) = false ↔
      Precedes16 c d := by
  have hne : c.toNat ≠ d.toNat := fun h => hne (Char.toNat_inj.mp h)
  -- A character is no surrogate, so one unit is below every first unit of two or above them all.
  have hc : c.toNat < 0xD800 ∨ 0xDFFF < c.toNat ∧ c.toNat < 0x110000 := c.valid
  have hd : d.toNat < 0xD800 ∨ 0xDFFF < d.toNat ∧ d.toNat < 0x110000 := d.valid
  have hcases (e : Char) := (CodePoint.char e).units16_cases
  simp only [CodePoint.toNat] at hcases
  unfold Precedes16
  rcases hcases c with ⟨hcone, hcunits⟩ | ⟨m, n, hm, hn, hcval, hcunits⟩
  · rcases hcases d with ⟨hdone, hdunits⟩ | ⟨k, l, hk, hl, hdval, hdunits⟩
    · rw [hcunits, hdunits]
      simp only [List.cons_append, dictionaryLe_cons_eq_false_iff, hne, false_and, or_false]
      omega
    · rw [hcunits, hdunits]
      simp only [List.cons_append, dictionaryLe_cons_eq_false_iff]
      omega
  · rcases hcases d with ⟨hdone, hdunits⟩ | ⟨k, l, hk, hl, hdval, hdunits⟩
    · rw [hcunits, hdunits]
      simp only [List.cons_append, dictionaryLe_cons_eq_false_iff]
      omega
    · rw [hcunits, hdunits]
      simp only [List.cons_append, dictionaryLe_cons_eq_false_iff]
      omega

/-- The first two characters that differ decide. -/
theorem bytes16_lt_iff_precedes16 {c d : Char} (hne : c ≠ d) (shared cs ds : List Char) :
    (ofChars (shared ++ c :: cs)).bytes16 < (ofChars (shared ++ d :: ds)).bytes16 ↔
      Precedes16 c d := by
  rw [bytes16_lt_iff, le16, units16_ofChars_append, units16_ofChars_append, dictionaryLe_append]
  exact dictionaryLe_units16_append hne _ _

/-- Texts are ordered by their bytes. For texts of characters that is a strict total order, and no
two of them have the same bytes. A proper beginning comes first, and else the first two characters
that differ decide. -/
theorem bytes16_strictTotalOrder :
    (∀ a b : Text, a.le16 b = true ↔ a.bytes16 ≤ b.bytes16) ∧
      IsStrictTotalOrder (List Char) (fun a b => (ofChars a).bytes16 < (ofChars b).bytes16) ∧
      (∀ a b : List Char, (ofChars a).bytes16 = (ofChars b).bytes16 ↔ a = b) ∧
      (∀ a b : List Char, a <+: b → a ≠ b → (ofChars a).bytes16 < (ofChars b).bytes16) ∧
      ∀ (shared a b : List Char) (c d : Char), c ≠ d →
        ((ofChars (shared ++ c :: a)).bytes16 < (ofChars (shared ++ d :: b)).bytes16 ↔
          Precedes16 c d) := by
  refine ⟨fun a b => le16_iff, ?_, fun a b => ⟨fun h => ?_, fun h => h ▸ rfl⟩, ?_, ?_⟩
  · exact {
      trichotomous := fun a b => eq_of_not_bytes16_lt
      irrefl := fun a => List.lt_irrefl _
      trans := fun a b c => List.lt_trans }
  · exact eq_of_not_bytes16_lt (h ▸ List.lt_irrefl _) (h ▸ List.lt_irrefl _)
  · rintro a b ⟨rest, rfl⟩ hne
    cases rest with
    | nil => exact absurd (List.append_nil a).symm hne
    | cons d ds => exact bytes16_lt_append_cons a ds d
  · exact fun shared a b c d hne => bytes16_lt_iff_precedes16 hne shared a b

/-- A character above U+FFFF comes before a wide letter of one unit, a text before one that it
begins, and two faces that have the first unit in common are told apart by the other one. -/
theorem bytes16_strictTotalOrder_faces :
    'Ａ' ≠ '😀' ∧ (ofChars "😀 smile".toList).bytes16 < (ofChars "Ａ fullwidth".toList).bytes16 ∧
      '😀' ≠ '😁' ∧ (ofChars "a😀".toList).bytes16 < (ofChars "a😁!".toList).bytes16 ∧
      "a😀".toList <+: "a😀!".toList ∧ "a😀".toList ≠ "a😀!".toList ∧
      (ofChars "a😀".toList).bytes16 < (ofChars "a😀!".toList).bytes16 := by
  obtain ⟨-, -, -, hprefix, hfirst⟩ := bytes16_strictTotalOrder
  have hbegins : "a😀".toList <+: "a😀!".toList := ⟨['!'], by decide⟩
  refine ⟨by decide, ?_, by decide, ?_, hbegins, by decide, hprefix _ _ hbegins (by decide)⟩
  · exact (hfirst [] " smile".toList " fullwidth".toList '😀' 'Ａ' (by decide)).mpr
      (.inr (by decide))
  · exact (hfirst ['a'] [] ['!'] '😀' '😁' (by decide)).mpr (.inl (by decide))

end Text

end Localization
