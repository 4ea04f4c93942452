import Localization.Proofs.Script.Template

/-! Templates that are refused. A malformed escape sequence between the substitutions of a template
is reported, with one exception: a backslash and `u` directly before a substitution go together with
the marker that is put in for it, and its number is taken for the digits of a code point. Main
statement: a template is refused exactly if one of its parts has a malformed escape sequence and is
not such an exception. -/

namespace Localization.Script

/-- A part in which nothing is wrong but a backslash and `u` at its end, before a marker whose number
gives a code point if it is read in base sixteen. -/
def Absorbed (i : Nat) (q : List Char) : Prop :=
  (∃ before, q = before ++ ['\\', 'u'] ∧ Sound before) ∧
    ∃ p : CodePoint, Hexadecimal (toString i).toList p.toNat

variable {q w : List Char} {i : Nat}

/-- A marker behind a backslash and `u` gives a code point, or is malformed. -/
theorem not_malformed_number : ¬ (Token.braced (toString i).toList).Malformed ↔
    ∃ p : CodePoint, Hexadecimal (toString i).toList p.toNat := by
  rw [← Token.exists_read_iff]
  refine exists_congr fun p => ?_
  rw [Token.read_number (by simp [Token.least]), Token.digits, and_iff_left_of_imp]
  intro h
  exact List.length_pos_of_ne_nil h.ne_nil

/-! A part before a marker. -/

theorem sound_marker (i : Nat) : Sound (marker i) :=
  .of_plain (not_mem_marker rfl (by decide) (by decide) i)

/-- A part without a fault has none before a marker, even if a backslash ends it. -/
theorem faulty_marker_of_not_faulty (h : ¬ Faulty q) : Faulty (q ++ (marker i ++ w)) ↔ Faulty w := by
  rcases not_faulty_cases h with hsound | ⟨before, rfl, hbefore⟩
  · rw [hsound.faulty_append, (sound_marker i).faulty_append]
  · have hquoted : Sound ('\\' :: marker i) := by
      have hrest : Sound ((toString i).toList ++ ['}']) :=
        .of_plain (by simpa using not_mem_number rfl i)
      exact .cons (t := .quoted '{') (by simp [Token.Begins]) (Token.complete_quoted _) hrest
    have hsplit : before ++ ['\\'] ++ (marker i ++ w) = before ++ (('\\' :: marker i) ++ w) := by
      simp
    rw [hsplit, hbefore.faulty_append, hquoted.faulty_append]

theorem braced_number (i : Nat) (w : List Char) :
    ['\\', 'u'] ++ (marker i ++ w) = (Token.braced (toString i).toList).chars ++ w ∧
      (Token.braced (toString i).toList).Begins w := by
  refine ⟨?_, not_mem_number rfl i⟩
  simp [marker, Token.chars]

theorem faulty_marker_of_absorbed (h : Absorbed i q) :
    Faulty (q ++ (marker i ++ w)) ↔ Faulty w := by
  obtain ⟨⟨before, rfl, hbefore⟩, hnumber⟩ := h
  obtain ⟨hchars, hbegins⟩ := braced_number i w
  rw [List.append_assoc, hbefore.faulty_append, hchars, hbegins.faulty_iff,
    or_iff_right (not_malformed_number.mpr hnumber)]

/-- Digits that are cut off by a marker go on with its brace. -/
theorem brace_mem_take {ds : List Char} {n : Nat} (h : ds.length < n) (w : List Char) :
    '{' ∈ (ds ++ (marker i ++ w)).take n := by
  obtain ⟨k, rfl⟩ := Nat.exists_eq_add_of_lt h
  rw [marker, List.take_append, show ds.length + k + 1 - ds.length = k + 1 by omega]
  simp

/-- Fewer characters than are taken are all there are. -/
theorem eq_nil_of_take {ds more : List Char} {n : Nat} (htake : ds = (ds ++ more).take n)
    (h : ds.length < n) : more = [] := by
  have hlength := congrArg List.length htake
  rw [List.length_take, List.length_append] at hlength
  exact List.length_eq_zero_iff.mp (by omega)

namespace Token

theorem faulty_byte {cs : List Char} (hmem : '{' ∈ cs.take 2) : Faulty ('\\' :: 'x' :: cs) := by
  have hfaulty := (begins_byte cs).faulty_iff.mpr (.inl (.digit hmem (not_isHexDigit rfl)))
  simpa [chars] using hfaulty

theorem faulty_unit {cs : List Char} (hhead : cs.head? ≠ some '{') (hmem : '{' ∈ cs.take 4) :
    Faulty ('\\' :: 'u' :: cs) := by
  have hfaulty := (begins_unit cs hhead).faulty_iff.mpr (.inl (.digit hmem (not_isHexDigit rfl)))
  simpa [chars] using hfaulty

/-- A brace that is not closed is closed by the marker, but the marker's own brace is no digit. -/
theorem faulty_braced {ds : List Char} (hds : '}' ∉ ds) (i : Nat) (w : List Char) :
    Faulty ('\\' :: 'u' :: '{' :: (ds ++ (marker i ++ w))) := by
  have hbegins : (braced (ds ++ '{' :: (toString i).toList)).Begins w := by
    have hnumber : '}' ∉ (toString i).toList := not_mem_number rfl i
    simpa [Begins, hds] using hnumber
  have hfaulty := hbegins.faulty_iff.mpr
    (.inl (.digit (c := '{') (by simp [digits]) (not_isHexDigit rfl)))
  simpa [chars, marker] using hfaulty

/-- Any other malformed token stays malformed before a marker: it ends before the marker, or its
digits go on with the marker's brace. -/
theorem Begins.faulty_marker {t : Token} {more : List Char} (ht : t.Begins more)
    (hbad : t.Malformed) (hnumber : t = unit [] → more ≠ []) :
    Faulty (t.chars ++ (more ++ (marker i ++ w))) := by
  have hends (hsame : t.Begins (more ++ (marker i ++ w))) :
      Faulty (t.chars ++ (more ++ (marker i ++ w))) := hsame.faulty_iff.mpr (.inl hbad)
  cases t with
  | plain c | control c | quoted c | lone => exact absurd hbad (not_malformed rfl rfl (by simp))
  | byte ds =>
    rcases Nat.lt_or_ge ds.length 2 with hshort | hlength
    · obtain rfl := eq_nil_of_take ht hshort
      exact faulty_byte (brace_mem_take hshort w)
    · exact hends (eq_take_of_le ht hlength _)
  | unit ds =>
    obtain ⟨hhead, htake⟩ := ht
    rcases Nat.lt_or_ge ds.length 4 with hshort | hlength
    · obtain rfl := eq_nil_of_take htake hshort
      refine faulty_unit ?_ (brace_mem_take hshort w)
      cases ds with
      | nil => exact absurd rfl (hnumber rfl)
      | cons d ds => exact hhead
    · refine hends ⟨?_, eq_take_of_le htake hlength _⟩
      cases ds with
      | nil => cases hlength
      | cons d ds => exact hhead
  | braced ds => exact hends ht
  | unclosed ds =>
    obtain ⟨hds, rfl⟩ := ht
    exact faulty_braced hds i w

end Token

theorem faulty_marker_of_faulty (h : Faulty q) (habsorbed : ¬ Absorbed i q) :
    Faulty (q ++ (marker i ++ w)) := by
  obtain ⟨before, rest, rfl, hbefore, hrest⟩ := exists_sound q
  rw [hbefore.faulty_append] at h
  rw [List.append_assoc, hbefore.faulty_append]
  obtain rfl | rfl | ⟨t, more, rfl, ht, hbad⟩ := hrest
  · exact absurd h not_faulty_nil
  · exact absurd h not_faulty_lone
  rw [List.append_assoc]
  by_cases hnumber : t = .unit [] → more ≠ []
  · exact ht.faulty_marker hbad hnumber
  · -- Only here do the digits of the marker become those of the escape sequence.
    obtain ⟨rfl, hmore⟩ := Classical.not_imp.mp hnumber
    obtain rfl := Classical.not_not.mp hmore
    obtain ⟨hchars, hbegins⟩ := braced_number i w
    rw [List.nil_append, Token.chars, hchars, hbegins.faulty_iff]
    refine .inl (Classical.not_not.mp fun hgood => habsorbed ?_)
    exact ⟨⟨before, rfl, hbefore⟩, not_malformed_number.mp hgood⟩

/-- A fault before a marker is one behind it, too, or is absorbed. -/
theorem faulty_marker : Faulty (q ++ (marker i ++ w)) ↔ Faulty q ∧ ¬ Absorbed i q ∨ Faulty w := by
  by_cases h : Faulty q
  · by_cases habsorbed : Absorbed i q
    · simp [faulty_marker_of_absorbed habsorbed, habsorbed]
    · simp [faulty_marker_of_faulty h habsorbed, h, habsorbed]
  · simp [faulty_marker_of_not_faulty h, h]

theorem faulty_behindMarks (q : List Char) (qs : List (List Char)) (i : Nat) :
    Faulty (q ++ behindMarks marker i qs) ↔
      ∃ k r, (q :: qs)[k]? = some r ∧ Faulty r ∧ ¬ (k < qs.length ∧ Absorbed (i + k) r) := by
  induction qs generalizing q i with
  | nil =>
    simp only [behindMarks, List.append_nil, List.length_nil, Nat.not_lt_zero, false_and,
      not_false_eq_true, and_true]
    constructor
    · intro h
      exact ⟨0, q, rfl, h⟩
    · rintro ⟨k, r, hk, h⟩
      obtain rfl := List.mem_singleton.mp (List.mem_of_getElem? hk)
      exact h
  | cons r qs ih =>
    rw [behindMarks, List.append_assoc, faulty_marker, ih]
    refine Iff.trans ?_ Nat.or_exists_add_one
    simp [Nat.add_assoc, Nat.add_comm 1]

/-- A template is refused exactly if a part of it has a malformed escape sequence and does not end
with a backslash and `u` that the marker behind it absorbs. -/
theorem Pieces.render_refused_iff (p : Pieces) :
    (∀ fault, p.tagged.render ≠ .error (.encoding fault)) ∧
    ((∃ e, p.tagged.render = .error (.escape e)) ↔
      ∃ k q, p.statics[k]? = some q ∧ Faulty q ∧ ¬ (k < p.rest.length ∧ Absorbed k q)) ∧
    ∀ start parts, ofParts parts = p →
      ((∃ e, classify (.node .template start parts) = .error (.escape e)) ↔
        ∃ k q, p.statics[k]? = some q ∧ Faulty q ∧ ¬ (k < p.rest.length ∧ Absorbed k q)) := by
  have hrefused : (∃ e, unescape (unixLines p.marked) = .error e) ↔
      ∃ k q, p.statics[k]? = some q ∧ Faulty q ∧ ¬ (k < p.rest.length ∧ Absorbed k q) := by
    simp only [unescape_eq_error_iff, ← faulty_iff, faulty_unixLines, marked, faulty_behindMarks,
      statics, List.length_map, Nat.zero_add]
  rw [← hrefused, p.render_eq]
  refine ⟨?_, ?_, fun start parts hparts => ?_⟩
  · cases unescape (unixLines p.marked) <;> simp [Except.mapError]
  · cases unescape (unixLines p.marked) <;> simp [Except.mapError]
  · rw [classify, p.renderTemplate_eq hparts]
    cases unescape (unixLines p.marked) <;> simp [Except.map, Except.mapError]

/-- The first marker makes a NUL of a cut-off escape sequence before it. -/
theorem Pieces.render_refused_iff_absorbed :
    Faulty "a\\u".toList ∧ Absorbed 0 "a\\u".toList ∧
      (Pieces.tagged ⟨"a\\u".toList, [("$\x7bx\x7d".toList, "b".toList)]⟩).render =
        .ok [.char 'a', .char '\x00', .char 'b'] := by
  have hfaulty : Faulty "a\\u".toList := faulty_iff.mpr ⟨_, rfl⟩
  have hrefused := (render_refused_iff ⟨"a\\u".toList, [("$\x7bx\x7d".toList, "b".toList)]⟩).2.1
  refine ⟨hfaulty, ?_, rfl⟩
  by_contra habsorbed
  obtain ⟨e, he⟩ := hrefused.mpr ⟨0, _, rfl, hfaulty, fun h => habsorbed h.2⟩
  cases he

end Localization.Script
