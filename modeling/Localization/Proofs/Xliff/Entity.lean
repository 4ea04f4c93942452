import Localization.Proofs.Text
import Localization.Proofs.Xml.CharData
import Localization.Xliff.Reading

/-! Text with entities is character data that stands for the text, and an id that is a digest needs
no entities. -/

namespace Localization.Xliff

open Xml Xml.Content

def encodedChar (c : Char) : List Char :=
  match Entity.entityOf? c with
  | some e => e.toList
  | none => [c]

def encoded (cs : List Char) : List Char := cs.flatMap encodedChar

theorem encodeOne_char (c : Char) : Entity.encodeOne (.char c) = .ofChars (encodedChar c) := by
  cases h : Entity.entityOf? c with
  | none => simp only [Entity.encodeOne, encodedChar, h]; rfl
  | some e => simp only [Entity.encodeOne, encodedChar, h]; rfl

theorem encode_ofChars (cs : List Char) : Entity.encode (.ofChars cs) = .ofChars (encoded cs) := by
  induction cs with
  | nil => rfl
  | cons c cs ih =>
    rw [Entity.encode] at ih
    simp [Entity.encode, encoded, List.flatMap_cons, encodeOne_char, ih]

/-- The characters that have entities, and those that stand for themselves. -/
theorem encodedChar_cases (c : Char) :
    (c = '"' ∨ c = '\x27' ∨ c = '<' ∨ c = '>' ∨ c = '&' ∨ c = '\n' ∨ c = '\r') ∨
      encodedChar c = [c] ∧
        (c ≠ '"' ∧ c ≠ '\x27' ∧ c ≠ '<' ∧ c ≠ '>' ∧ c ≠ '&' ∧ c ≠ '\n' ∧ c ≠ '\r') := by
  by_cases h : c = '"' ∨ c = '\x27' ∨ c = '<' ∨ c = '>' ∨ c = '&' ∨ c = '\n' ∨ c = '\r'
  · exact .inl h
  · simp only [not_or] at h
    have hnone : Entity.entityOf? c = none := by
      rw [Entity.entityOf?]
      all_goals simp [h]
    exact .inr ⟨by rw [encodedChar, hnone], h⟩

theorem charData_reference {c : Char} (ref : List Char)
    (href : ∀ after, token ('&' :: (ref ++ after)) = .ok (.chars [c], after)) :
    CharData ('&' :: ref) [c] := by
  have h := CharData.reference href .nil
  rwa [List.append_nil] at h

/-- A written character is character data that stands for the character. -/
theorem charData_encodedChar {c : Char} (hc : isLegal c = true) : CharData (encodedChar c) [c] := by
  rcases encodedChar_cases c with h | ⟨h, -, -, hlt, -, hamp, -, hcr⟩
  · rcases h with rfl | rfl | rfl | rfl | rfl | rfl | rfl
    · exact charData_reference "quot;".toList fun _ => rfl
    · exact charData_reference "apos;".toList fun _ => rfl
    · exact charData_reference "lt;".toList fun _ => rfl
    · exact charData_reference "gt;".toList fun _ => rfl
    · exact charData_reference "amp;".toList fun _ => rfl
    · exact charData_reference "#10;".toList fun _ => rfl
    · exact charData_reference "#13;".toList fun _ => rfl
  · rw [h]
    by_cases hbracket : c = ']'
    · rw [hbracket]
      exact .bracket (by simp) .nil
    · exact .plain (by simp [isPlain, hc, hlt, hamp, hbracket, hcr]) .nil

/-- What is written holds no sign that ends a tag, and no line end. -/
theorem not_mem_encodedChar (c : Char) :
    '>' ∉ encodedChar c ∧ '\r' ∉ encodedChar c ∧ '\n' ∉ encodedChar c ∧ encodedChar c ≠ [] := by
  rcases encodedChar_cases c with h | ⟨h, -, -, -, hgt, -, hlf, hcr⟩
  · rcases h with rfl | rfl | rfl | rfl | rfl | rfl | rfl <;> decide
  · rw [h]
    simp [Ne.symm hgt, Ne.symm hlf, Ne.symm hcr]

theorem not_mem_encoded (cs : List Char) :
    '>' ∉ encoded cs ∧ '\r' ∉ encoded cs ∧ '\n' ∉ encoded cs := by
  simp only [encoded, List.mem_flatMap, not_exists, not_and]
  exact ⟨fun c _ => (not_mem_encodedChar c).1, fun c _ => (not_mem_encodedChar c).2.1,
    fun c _ => (not_mem_encodedChar c).2.2.1⟩

theorem encoded_ne_nil {cs : List Char} (h : cs ≠ []) : encoded cs ≠ [] := by
  obtain ⟨c, cs, rfl⟩ := List.exists_cons_of_ne_nil h
  simp [encoded, List.flatMap_cons, (not_mem_encodedChar c).2.2.2]

theorem charData_encoded {cs : List Char} (h : ∀ c ∈ cs, isLegal c = true) :
    CharData (encoded cs) cs := by
  induction cs with
  | nil => exact .nil
  | cons c cs ih =>
    have hrest := ih fun d hd => h d (List.mem_cons_of_mem _ hd)
    rw [encoded, List.flatMap_cons]
    exact (charData_encodedChar (h c (by simp))).append hrest (not_mem_encodedChar c).2.1
      (not_mem_encoded cs).1

/-! Digests. -/

/-- A character of a mark or a digest: it needs no escape anywhere. -/
def isIdChar (c : Char) : Bool := c.isAlphanum || c == '+'

theorem isIdChar_ascii {c : Char} (h : isIdChar c = true) : 0x20 ≤ c.toNat ∧ c.toNat < 0x80 := by
  have hcases : ((c.isAlpha || c.isDigit) || c == '+') = true := h
  simp only [Bool.or_eq_true, beq_iff_eq] at hcases
  rcases hcases with (h | h) | rfl
  · have hrange := range_of_isAlpha h
    omega
  · have hrange := range_of_isDigit h
    omega
  · decide

theorem length_bytesOf (count n : Nat) : (Sha256.bytesOf count n).length = count := by
  induction count with
  | zero => rfl
  | succ count ih =>
    show (Sha256.bytesOf count n).length + 1 = count + 1
    rw [ih]

theorem length_digest (message : List UInt8) : (Sha256.digest message).length = 32 := by
  rw [Sha256.digest, List.length_flatMap]
  simp [Sha256.State.words, length_bytesOf]

theorem length_hexDigest (message : List UInt8) : (Sha256.hexDigest message).length = 64 := by
  have hpair : ∀ bytes : List UInt8,
      (bytes.flatMap Sha256.hexDigits).length = 2 * bytes.length := by
    intro bytes
    induction bytes with
    | nil => rfl
    | cons b bytes ih =>
      rw [List.flatMap_cons, List.length_append, ih, List.length_cons]
      show 2 + 2 * bytes.length = 2 * (bytes.length + 1)
      omega
  rw [Sha256.hexDigest, hpair, length_digest]

theorem isIdChar_hexDigest (message : List UInt8) :
    ∀ c ∈ Sha256.hexDigest message, isIdChar c = true := by
  have hdigit : ∀ n < 16, isIdChar (Nat.digitChar n) = true := by decide
  intro c hc
  rw [Sha256.hexDigest, List.mem_flatMap] at hc
  obtain ⟨b, -, hc⟩ := hc
  have hb : b.toNat < 256 := b.toNat_lt
  simp only [Sha256.hexDigits, List.mem_cons, List.not_mem_nil, or_false] at hc
  rcases hc with rfl | rfl
  · exact hdigit _ (by omega)
  · exact hdigit _ (by omega)

/-- What every id that is a digest begins with. -/
def mark : List Char := ['+', '+', 'C', 'O', 'D', 'E', '+', '+']

theorem hashMark_eq : hashMark = Text.ofChars mark := rfl

/-- A mark with digits enough is known as such. -/
theorem isHashed_mark {digits : List Char} (h : digits.length = 64) :
    isHashed (.ofChars (mark ++ digits)) = true := by
  have hmark : hashMark.isPrefixOf (Text.ofChars (mark ++ digits)) = true := by
    rw [hashMark_eq, Text.ofChars_append, List.isPrefixOf_iff_prefix]
    exact List.prefix_append _ _
  have hlen : (Text.ofChars (mark ++ digits)).length = hashedLength := by
    simp only [Text.ofChars, List.length_map, List.length_append, h, mark, List.length_cons,
      List.length_nil, hashedLength]
  rw [isHashed, hmark, hlen, beq_self_eq_true, Bool.and_true]

/-- The id of a key consists of characters that need no escape, and it is known as a digest. -/
theorem hashId_eq (key : Text) : ∃ id, hashId key = Text.ofChars id ∧
    (∀ c ∈ id, isIdChar c = true) ∧ isHashed (.ofChars id) = true := by
  have hmark : ∀ c ∈ mark, isIdChar c = true := List.all_eq_true.mp (by decide)
  refine ⟨mark ++ Sha256.hexDigest (key.units16.map UInt8.ofNat), ?_, ?_,
    isHashed_mark (length_hexDigest _)⟩
  · rw [hashId, hashMark_eq, Text.ofChars_append]
  · intro c hc
    rcases List.mem_append.mp hc with hc | hc
    · exact hmark c hc
    · exact isIdChar_hexDigest _ c hc

theorem encoded_of_isIdChar {cs : List Char} (h : ∀ c ∈ cs, isIdChar c = true) :
    encoded cs = cs := by
  induction cs with
  | nil => rfl
  | cons c cs ih =>
    have hc := h c (by simp)
    have hone : encodedChar c = [c] := by
      rcases encodedChar_cases c with hspecial | ⟨hone, -⟩
      · rcases hspecial with rfl | rfl | rfl | rfl | rfl | rfl | rfl <;> revert hc <;> decide
      · exact hone
    have ih := ih fun d hd => h d (List.mem_cons_of_mem _ hd)
    rw [encoded] at ih
    rw [encoded, List.flatMap_cons, hone, ih]
    rfl

theorem isVerbatim_of_isIdChar {cs : List Char} (h : ∀ c ∈ cs, isIdChar c = true) :
    Attribute.IsVerbatim cs := by
  intro c hc
  have hid := h c hc
  have hlow := isIdChar_ascii hid
  refine ⟨?_, ?_, ?_, ?_, ?_, ?_, ?_⟩
  · simp only [isLegal, Bool.and_eq_true, Bool.or_eq_true, decide_eq_true_eq, bne_iff_ne]
    omega
  all_goals rintro rfl; revert hid; decide

theorem isVerbatim_en : Attribute.IsVerbatim "en".toList :=
  isVerbatim_of_isIdChar (List.all_eq_true.mp (by decide))

end Localization.Xliff
