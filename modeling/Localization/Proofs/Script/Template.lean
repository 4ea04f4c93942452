import Localization.Proofs.Script.InPlace
import Localization.Proofs.Script.Sound
import Localization.Proofs.Utf8
import Localization.Script.Template

/-! Templates with substitutions: if each of the parts between the substitutions is read without
fault and ends where it does, then they are read one by one, and stand between the markers. -/

namespace Localization.Script

/-- Lists one behind the other, each behind a mark with its number. -/
def behindMarks {α : Type} (mark : Nat → List α) (index : Nat) : List (List α) → List α
  | [] => []
  | q :: qs => mark index ++ q ++ behindMarks mark (index + 1) qs

/-! Markers. -/

theorem not_mem_number {c : Char} (h : c.isDigit = false) (i : Nat) : c ∉ (toString i).toList := by
  intro hmem
  have hdigits : (toString i).toList = Nat.toDigits 10 i := by simp
  rw [hdigits] at hmem
  simp [Nat.isDigit_of_mem_toDigits (by decide) (by decide) hmem] at h

theorem not_mem_marker {c : Char} (h : c.isDigit = false) (hopen : c ≠ '{') (hclose : c ≠ '}')
    (i : Nat) : c ∉ marker i := by
  rw [marker, List.mem_append, List.mem_cons, List.mem_singleton]
  exact not_or.mpr ⟨not_or.mpr ⟨hopen, not_mem_number h i⟩, hclose⟩

/-! The characters of a template with markers. -/

theorem take_drop_splice (before s after : List UInt8) :
    (before ++ (s ++ after)).take before.length = before ∧
      (before ++ (s ++ after)).drop (before.length + s.length) = after := by
  refine ⟨List.take_left, ?_⟩
  rw [← List.drop_drop, List.drop_left, List.drop_left]

/-- Putting in the markers changes nothing before the first place. -/
theorem foldr_splice (rest : List (List Char × List Char)) (before after : List UInt8) (i : Nat) :
    ((Pieces.spansFrom before.length rest).zipIdx i).foldr (fun s source => splice source s.1 s.2)
      (before ++ (Utf8.encode (rest.flatMap fun s => s.1 ++ s.2) ++ after)) =
    before ++ (Utf8.encode (behindMarks marker i (rest.map Prod.snd)) ++ after) := by
  induction rest generalizing before i with
  | nil => rfl
  | cons s rest ih =>
    obtain ⟨s, q⟩ := s
    have hbefore := ih (before ++ Utf8.encode s ++ Utf8.encode q) (i + 1)
    simp only [List.length_append, List.append_assoc] at hbefore
    simp only [Pieces.spansFrom, List.zipIdx_cons, List.foldr_cons, List.flatMap_cons,
      Utf8.encode_append, List.append_assoc, Nat.add_assoc, hbefore, List.map_cons, behindMarks]
    obtain ⟨htake, hdrop⟩ := take_drop_splice before (Utf8.encode s) (Utf8.encode q ++
      (Utf8.encode (behindMarks marker (i + 1) (rest.map Prod.snd)) ++ after))
    rw [splice, htake, hdrop, List.append_assoc]

namespace Pieces

variable (p : Pieces)

/-- The characters of a template with markers for its substitutions. -/
def marked : List Char := p.first ++ behindMarks marker 0 (p.rest.map Prod.snd)

theorem marked_tagged : p.tagged.marked = Utf8.encode ('\x60' :: (p.marked ++ ['\x60'])) := by
  have hsplice := foldr_splice p.rest (Utf8.encode ('\x60' :: p.first)) (Utf8.encode ['\x60']) 0
  simp only [← Utf8.encode_append] at hsplice
  simpa [TaggedTemplate.marked, tagged, inside, marked] using hsplice

theorem render_eq : p.tagged.render = (unescape (unixLines p.marked)).mapError .escape := by
  rw [TaggedTemplate.render, marked_tagged, Utf8.decode_encode]
  change (unescape (unixLines (p.marked ++ ['\x60']).dropLast)).mapError TemplateError.escape = _
  rw [List.dropLast_concat]

theorem numbered_ofParts (i : Nat) (parts : List Tree) :
    numbered i parts =
      (ofParts parts).first ++ behindMarks marker i ((ofParts parts).rest.map Prod.snd) := by
  fun_induction numbered i parts with
  | case1 => rfl
  | case2 i start below parts ih =>
    rw [ih, ofParts]
    simp [behindMarks, marker]
  | case3 i part parts hpart ih =>
    rw [ih, ofParts, List.append_assoc]
    exact hpart

/-- A template in a tree is read as the template in the script is. -/
theorem renderTemplate_eq {parts : List Tree} (h : ofParts parts = p) :
    renderTemplate parts = unescape (unixLines p.marked) := by
  rw [renderTemplate, numbered_ofParts, h, marked]

end Pieces

/-! Parts that are read one by one. -/

theorem unixLines_behindMarks (a : List Char) (i : Nat) (qs : List (List Char)) :
    unixLines (a ++ behindMarks marker i qs) =
      unixLines a ++ behindMarks marker i (qs.map unixLines) := by
  induction qs generalizing a i with
  | nil => simp [behindMarks]
  | cons q qs ih =>
    have hparted : Parted a (marker i ++ (q ++ behindMarks marker (i + 1) qs)) := fun _ => by
      simp [marker]
    have hcr : '\r' ∉ marker i := not_mem_marker rfl (by decide) (by decide) i
    rw [behindMarks, List.append_assoc, unixLines_append hparted, LineReading.unix.verbatim hcr, ih]
    simp [behindMarks]

theorem Paired.append_char {t u s w : Text} {c : Char} (h : Paired t u)
    (hrest : Paired (.char c :: s) w) : Paired (t ++ .char c :: s) (u ++ w) := by
  induction h with
  | nil => exact hrest
  | pair hhigh hlow hunits _ ih => exact .pair hhigh hlow hunits ih
  | @single p t u h _ ih =>
    refine .single (fun hhigh q hq => ?_) ih
    cases t with
    | nil =>
      obtain rfl := Option.some.inj hq
      rw [CodePoint.isLow_iff]
      rintro ⟨l, hl, -⟩
      cases hl
    | cons => exact h hhigh q hq

theorem Paired.ofChars_append {s w : Text} (h : Paired s w) (cs : List Char) :
    Paired (Text.ofChars cs ++ s) (Text.ofChars cs ++ w) := by
  induction cs with
  | nil => exact h
  | cons c cs ih =>
    refine .single (fun hhigh => ?_) ih
    obtain ⟨m, hm, -⟩ := CodePoint.isHigh_iff.mp hhigh
    cases hm

/-- A marker parts what is before it from what is behind it. -/
theorem unescape_between {a b : List Char} {u w : Text} (ha : Sound a) (hu : unescape a = .ok u)
    (hw : unescape b = .ok w) (i : Nat) :
    unescape (a ++ (marker i ++ b)) = .ok (u ++ (markerText i ++ w)) := by
  obtain ⟨t, ht, htu⟩ := unescape_eq_ok_iff.mp hu
  obtain ⟨s, hs, hsw⟩ := unescape_eq_ok_iff.mp hw
  obtain ⟨t', ht', hbehind⟩ := ha.read
  obtain rfl := Except.ok.inj (ht.symm.trans ht')
  have hplain : '\\' ∉ marker i := not_mem_marker rfl (by decide) (by decide) i
  refine unescape_eq_ok_iff.mpr ⟨t ++ (markerText i ++ s), ?_, ?_⟩
  · rw [hbehind, unescapeFrom_plain hplain, hs]
    rfl
  · exact htu.append_char (hsw.ofChars_append (marker i))

theorem unescape_behindMarks {a : List Char} {u : Text} {qs : List (List Char)} {us : List Text}
    (ha : Sound a) (hu : unescape a = .ok u) (hqs : ∀ q ∈ qs, Sound q)
    (hus : List.Forall₂ (fun q u => unescape q = .ok u) qs us) (i : Nat) :
    unescape (a ++ behindMarks marker i qs) =
      .ok (u ++ behindMarks markerText i us) := by
  induction hus generalizing a u i with
  | nil => simpa [behindMarks] using hu
  | cons hw _ ih =>
    obtain ⟨hq, hqs⟩ := List.forall_mem_cons.mp hqs
    rw [behindMarks, List.append_assoc, unescape_between ha hu (ih hq hw hqs (i + 1)) i]
    simp [behindMarks]

theorem not_faulty_iff_unescape {cs : List Char} : ¬ Faulty cs ↔ ∃ t, unescape cs = .ok t := by
  rw [not_faulty_iff]
  unfold unescape
  cases unescapeFrom 0 cs <;> simp [Except.map]

/-- A template has the texts of its parts between the markers, in their order, if each part is read
without fault and no backslash at its end is left over. -/
theorem Pieces.render_statics {p : Pieces} (h : ∀ q ∈ p.statics, (∃ t, unescape q = .ok t) ∧
    ¬ Odd (backslashes q)) :
    ∃ u us, List.Forall₂ (fun q u => unescape (unixLines q) = .ok u) p.statics (u :: us) ∧
      p.tagged.render = .ok (u ++ behindMarks markerText 0 us) ∧
      ∀ start parts, ofParts parts = p → classify (.node .template start parts) =
        .ok (some ⟨u ++ behindMarks markerText 0 us, []⟩) := by
  have hsound : ∀ q ∈ p.statics, Sound q := by
    intro q hq
    obtain ⟨hread, hend⟩ := h q hq
    exact sound_of_not_faulty (not_faulty_iff_unescape.mpr hread) hend
  obtain ⟨texts, htexts⟩ := exists_forall₂ fun q hq =>
    not_faulty_iff_unescape.mp (hsound q hq).unixLines.not_faulty
  obtain ⟨u, us, hu, hus, rfl⟩ := List.forall₂_cons_left_iff.mp htexts
  obtain ⟨hfirst, hrest⟩ := List.forall_mem_cons.mp hsound
  have hread : unescape (unixLines p.marked) =
      .ok (u ++ behindMarks markerText 0 us) := by
    rw [marked, unixLines_behindMarks]
    refine unescape_behindMarks hfirst.unixLines hu ?_ (List.forall₂_map_left_iff.mpr hus) 0
    intro q hq
    obtain ⟨q, hmem, rfl⟩ := List.mem_map.mp hq
    exact (hrest q hmem).unixLines
  refine ⟨u, us, htexts, ?_, fun start parts hparts => ?_⟩
  · rw [p.render_eq, hread]
    rfl
  · rw [classify, p.renderTemplate_eq hparts, hread]
    rfl

/-- A substitution that holds another one, and a line end and a backslash before markers. -/
theorem Pieces.render_statics_nested :
    (Pieces.tagged ⟨"é\r\n".toList, [("$\x7b\x60$\x7bx\x7d\x60\x7d".toList, "\\x41\\\\".toList),
      ("$\x7by\x7d".toList, [])]⟩).render = .ok (.ofString "é\n\x7b0\x7dA\\\x7b1\x7d") := by
  have hgood : ∀ q ∈ ["é\r\n".toList, "\\x41\\\\".toList, []],
      (∃ t, unescape q = .ok t) ∧ ¬ Odd (backslashes q) := by
    intro q hq
    simp only [List.mem_cons, List.not_mem_nil, or_false] at hq
    rcases hq with rfl | rfl | rfl <;> exact ⟨⟨_, rfl⟩, by decide⟩
  obtain ⟨u, us, htexts, hrender, -⟩ := render_statics (p := ⟨"é\r\n".toList,
    [("$\x7b\x60$\x7bx\x7d\x60\x7d".toList, "\\x41\\\\".toList), ("$\x7by\x7d".toList, [])]⟩) hgood
  rcases htexts with _ | ⟨h0, _ | ⟨h1, _ | ⟨h2, _ | _⟩⟩⟩
  cases h0
  cases h1
  cases h2
  exact hrender

end Localization.Script
