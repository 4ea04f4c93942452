import Localization.Proofs.Xliff.Entity

/-! Text with entities is also the value of an attribute: a reference stands for its character, and
every other character for itself, except that tabs are read as spaces. -/

namespace Localization.Xliff

open Xml

/-- A character of the value of an attribute as it is read. -/
def blankedChar (c : Char) : Char := if c = '\t' then ' ' else c

/-- A reference stands for a character. -/
def Denotes (c : Char) : Reference → Prop
  | .entity name => standardEntity? name = some c
  | .number n => numbered? n = some c

/-- A written character is a reference to it, or the character itself. -/
theorem encodedChar_reference (c : Char) :
    (∃ ref r, encodedChar c = '&' :: ref ∧ (∀ after, scanReference (ref ++ after) = .ok (r, after)) ∧
      Denotes c r ∧ Attribute.IsVerbatim ref) ∨
      encodedChar c = [c] ∧ c ≠ '"' ∧ c ≠ '<' ∧ c ≠ '&' ∧ c ≠ '\n' ∧ c ≠ '\r' := by
  have hverbatim : ∀ ref : List Char, (ref.all fun c => isIdChar c || c == ';' || c == '#') = true →
      Attribute.IsVerbatim ref := by
    intro ref h c hc
    have hone := List.all_eq_true.mp h c hc
    simp only [Bool.or_eq_true, beq_iff_eq] at hone
    rcases hone with (hid | rfl) | rfl
    · have hone : ∀ d ∈ [c], isIdChar d = true := by simpa using hid
      exact isVerbatim_of_isIdChar hone c (by simp)
    · decide
    · decide
  rcases encodedChar_cases c with h | ⟨h, hquote, -, hlt, -, hamp, hlf, hcr⟩
  · refine .inl ?_
    rcases h with rfl | rfl | rfl | rfl | rfl | rfl | rfl
    · exact ⟨"quot;".toList, .entity "quot".toList, rfl, fun _ => rfl, rfl, hverbatim _ (by decide)⟩
    · exact ⟨"apos;".toList, .entity "apos".toList, rfl, fun _ => rfl, rfl, hverbatim _ (by decide)⟩
    · exact ⟨"lt;".toList, .entity "lt".toList, rfl, fun _ => rfl, rfl, hverbatim _ (by decide)⟩
    · exact ⟨"gt;".toList, .entity "gt".toList, rfl, fun _ => rfl, rfl, hverbatim _ (by decide)⟩
    · exact ⟨"amp;".toList, .entity "amp".toList, rfl, fun _ => rfl, rfl, hverbatim _ (by decide)⟩
    · exact ⟨"#10;".toList, .number 10, rfl, fun _ => rfl, rfl, hverbatim _ (by decide)⟩
    · exact ⟨"#13;".toList, .number 13, rfl, fun _ => rfl, rfl, hverbatim _ (by decide)⟩
  · exact .inr ⟨h, hquote, hlt, hamp, hlf, hcr⟩

theorem scanValue_verbatim {cs : List Char} (h : Attribute.IsVerbatim cs) (rest : List Char) :
    scanValue '"' (cs ++ rest) = (scanValue '"' rest).map fun r => (cs ++ r.1, r.2) := by
  induction cs with
  | nil => cases h : scanValue '"' rest <;> simp [Except.map, h]
  | cons c cs ih =>
    obtain ⟨hlegal, hquote, hlt, hamp, -⟩ := h c (by simp)
    rw [List.cons_append, scanValue, ih fun d hd => h d (List.mem_cons_of_mem _ hd)]
    simp only [hquote, hlt, hamp, hlegal, if_false, Bool.not_true, Bool.or_false, decide_false,
      Bool.false_eq_true]
    cases scanValue '"' rest <;> rfl

theorem scanValue_encodedChar {c : Char} (hc : isLegal c = true) (rest : List Char) :
    scanValue '"' (encodedChar c ++ rest) =
      (scanValue '"' rest).map fun r => (encodedChar c ++ r.1, r.2) := by
  rcases encodedChar_reference c with ⟨ref, r, h, href, -, hverbatim⟩ | ⟨h, hquote, hlt, hamp, -⟩
  · have hsign : ¬ ('&' = '"') ∧ ¬ ((decide ('&' = '<') || !isLegal '&') = true) := by decide
    rw [h, List.cons_append, scanValue, if_neg hsign.1, if_neg hsign.2, if_pos rfl, href,
      scanValue_verbatim hverbatim]
    cases scanValue '"' rest <;> rfl
  · rw [h, List.singleton_append, scanValue]
    simp [hquote, hlt, hamp, hc]

variable {expand : List Char → Except ValueFault (List Char)}

theorem valueWith_encodedChar (c : Char) (fuel : Nat) (rest : List Char) :
    valueWith expand 0 (fuel + 1) (encodedChar c ++ rest) =
      (valueWith expand 0 fuel rest).map (blankedChar c :: ·) := by
  rcases encodedChar_reference c with ⟨ref, r, h, href, hr, -⟩ | ⟨h, -, hlt, hamp, hlf, hcr⟩
  · have hself : blankedChar c = c := by
      rw [blankedChar, if_neg]
      rintro rfl
      cases h
    rw [h, List.cons_append, valueWith]
    simp only [href]
    cases r with
    | entity name =>
      have hname : standardEntity? name = some c := hr
      simp only [hname, hself]
    | number n =>
      have hn : numbered? n = some c := hr
      simp only [hn, hself]
  · have hchar : (if isBlank c then ' ' else c) = blankedChar c := by
      by_cases htab : c = '\t'
      · rw [htab]; rfl
      · by_cases hspace : c = ' '
        · rw [hspace]; rfl
        · simp [isBlank, blankedChar, htab, hspace, hlf, hcr]
    rw [h, List.singleton_append, valueWith, hchar]
    all_goals simp [hlt, hamp, hcr]

/-- Text with entities is the value of an attribute, and tabs in it are read as spaces. -/
theorem isValue_encoded {cs : List Char} (h : ∀ c ∈ cs, isLegal c = true) :
    Attribute.IsValue (encoded cs) (cs.map blankedChar) := by
  constructor
  · induction cs with
    | nil => rfl
    | cons c cs ih =>
      rw [encoded, List.flatMap_cons, List.append_assoc, scanValue_encodedChar (h c (by simp)),
        ← encoded, ih fun d hd => h d (List.mem_cons_of_mem _ hd)]
      rfl
  · have hvalue : ∀ fuel, (encoded cs).length < fuel →
        valueWith (expandInValue {} 1 []) 0 fuel (encoded cs) = .ok (cs.map blankedChar) := by
      clear h
      induction cs with
      | nil =>
        intro fuel hfuel
        obtain ⟨fuel, rfl⟩ := Nat.exists_eq_add_one.mpr hfuel
        rfl
      | cons c cs ih =>
        intro fuel hfuel
        obtain ⟨fuel, rfl⟩ := Nat.exists_eq_add_one.mpr (Nat.zero_lt_of_lt hfuel)
        have hpos := List.length_pos_iff.mpr (not_mem_encodedChar c).2.2.2
        rw [encoded, List.flatMap_cons, List.length_append, ← encoded] at hfuel
        rw [encoded, List.flatMap_cons, valueWith_encodedChar, ← encoded, ih fuel (by omega)]
        rfl
    rw [attributeValue]
    exact map_eq_ok_iff.mpr ⟨_, hvalue _ (Nat.lt_succ_self _), rfl⟩

/-- A character and what it is written as are blanked alike. -/
theorem map_blankedChar_encoded (cs : List Char) :
    (encoded cs).map blankedChar = encoded (cs.map blankedChar) := by
  induction cs with
  | nil => rfl
  | cons c cs ih =>
    have hone : (encodedChar c).map blankedChar = encodedChar (blankedChar c) := by
      rcases encodedChar_cases c with h | ⟨h, hplain⟩
      · rcases h with rfl | rfl | rfl | rfl | rfl | rfl | rfl <;> rfl
      · by_cases htab : c = '\t'
        · rw [htab]; rfl
        · rw [h, blankedChar, if_neg htab, h, List.map_singleton, blankedChar, if_neg htab]
    rw [encoded, List.flatMap_cons, List.map_append, hone, ← encoded, ih, encoded, encoded,
      List.map_cons, List.flatMap_cons]

end Localization.Xliff
