import Localization.Proofs.Json.Object
import Localization.Proofs.Utf8

/-! Values that are sent in UTF-8 are read again: data in UTF-8 that begin with ASCII are taken for
what they are. -/

namespace Localization

/-- A character that has one byte, which is not zero. -/
def Utf8.IsPlain (c : Char) : Prop := 0 < c.toNat ∧ c.toNat < 0x80

instance (c : Char) : Decidable (Utf8.IsPlain c) := inferInstanceAs (Decidable (_ ∧ _))

theorem Utf8.exists_byte_of_isPlain {c : Char} (h : IsPlain c) :
    ∃ a, encodeChar c = [a] ∧ 0 < a.toNat ∧ a.toNat < 0x80 := by
  obtain ⟨hpos, hlt⟩ := h
  have hbyte : (UInt8.ofNat c.toNat).toNat = c.toNat := Nat.mod_eq_of_lt (by omega)
  exact ⟨.ofNat c.toNat, by simp [encodeChar, hlt], by omega, by omega⟩

namespace Encoding

theorem find?_marks_eq_none {a : UInt8} (hpos : 0 < a.toNat) (hlt : a.toNat < 0x80)
    (bytes : List UInt8) : marks.find? (fun m => m.1.isPrefixOf (a :: bytes)) = none := by
  have hall : ∀ m ∈ marks, ∃ first rest, m.1 = first :: rest ∧
      (first.toNat = 0 ∨ 0x80 ≤ first.toNat) := by
    simp only [marks, List.forall_mem_cons]
    exact ⟨⟨_, _, rfl, by decide⟩, ⟨_, _, rfl, by decide⟩, ⟨_, _, rfl, by decide⟩,
      ⟨_, _, rfl, by decide⟩, ⟨_, _, rfl, by decide⟩, by simp⟩
  rw [List.find?_eq_none]
  intro m hm
  obtain ⟨first, rest, hmark, hfirst⟩ := hall m hm
  have hne : first ≠ a := by
    rintro rfl
    omega
  simp [hmark, hne]

theorem unmarked_plain {a b : UInt8} (ha : 0 < a.toNat) (hb : 0 < b.toNat) (bytes : List UInt8) :
    unmarked (a :: b :: bytes) = .utf8 := by
  have ha : a ≠ 0 := by
    rintro rfl
    exact absurd ha (by decide)
  have hb : b ≠ 0 := by
    rintro rfl
    exact absurd hb (by decide)
  match bytes with
  | [] => simp [unmarked, ha, hb]
  | [_] => rfl
  | _ :: _ :: _ => simp [unmarked, ha, hb]

end Encoding

/-- Characters of which the first two are ASCII, and not zero, are read as they are. -/
theorem Text.ofBytes?_encode {c d : Char} (hc : Utf8.IsPlain c) (hd : Utf8.IsPlain d)
    (cs : List Char) : ofBytes? (Utf8.encode (c :: d :: cs)) = some (ofChars (c :: d :: cs)) := by
  obtain ⟨a, hca, hapos, halt⟩ := Utf8.exists_byte_of_isPlain hc
  obtain ⟨b, hdb, hbpos, -⟩ := Utf8.exists_byte_of_isPlain hd
  have hbytes : Utf8.encode (c :: d :: cs) = a :: b :: Utf8.encode cs := by
    simp [Utf8.encode_cons, hca, hdb]
  have hdecode := Utf8.decodeText_encode (c :: d :: cs)
  rw [hbytes] at hdecode ⊢
  simp only [ofBytes?, Encoding.find?_marks_eq_none hapos halt,
    Encoding.unmarked_plain hapos hbpos, Encoding.decode?, hdecode]
  rfl

namespace Json

variable {nesting : Nat}

/-- Characters of which the first two are ASCII are read as they are. -/
theorem ofBytes_encode {c d : Char} (hc : Utf8.IsPlain c) (hd : Utf8.IsPlain d) (cs : List Char) :
    ofBytes (Utf8.encode (c :: d :: cs)) nesting =
      (read (.ofChars (c :: d :: cs)) nesting).mapError fun f => .content f.complaint := by
  rw [ofBytes, Text.ofBytes?_encode hc hd]

/-- The text of an array begins with two characters of ASCII. -/
theorem exists_render_array (items : List Json) :
    ∃ d t, Utf8.IsPlain d ∧ render (.array items) = .char '[' :: .char d :: t := by
  rw [render, renderAt, bracketed]
  split
  · exact ⟨']', [], by decide, rfl⟩
  · exact ⟨'\n', _, by decide, rfl⟩

theorem ofBytes_render_array {items : List Json} (h : Textual nesting (.array items)) :
    ∃ cs, render (.array items) = .ofChars cs ∧
      ofBytes (Utf8.encode cs) nesting = .ok (.array items) := by
  obtain ⟨cs, hcs⟩ := exists_ofChars_render h
  obtain ⟨d, t, hd, hbegin⟩ := exists_render_array items
  obtain ⟨rest, rfl, -⟩ := Text.exists_of_ofChars_eq_append (a := ['[', d]) (hcs.symm.trans hbegin)
  refine ⟨_, hcs, ?_⟩
  simp only [List.cons_append, List.nil_append] at hcs ⊢
  rw [ofBytes_encode (by decide) hd, ← hcs, read_render h]
  rfl

end Json

end Localization
