import Localization.Proofs.File.Beside

/-! What patterns stand for, whatever files there are: texts for the pattern of a name, and ways of
names for the pattern of a path. A pattern finds a file exactly by the ways that it stands for and
that lead there. -/

namespace Localization

/-- The texts that the pattern of a name stands for: any characters for `*`, and one that is
admitted for every other part. -/
inductive Wildcard.Spells : List Wildcard → Text → Prop
  | nil : Spells [] []
  | any {ws : List Wildcard} {t : Text} (part : Text) (more : Spells ws t) :
    Spells (.any :: ws) (part ++ t)
  | one {w : Wildcard} {ws : List Wildcard} {p : CodePoint} {t : Text} (admits : w.admits p = true)
    (more : Spells ws t) : Spells (w :: ws) (p :: t)

namespace Wildcard

theorem Spells.any_cons {ws : List Wildcard} {t : Text} (p : CodePoint)
    (h : Spells (.any :: ws) t) : Spells (.any :: ws) (p :: t) := by
  cases h with
  | any part more => exact .any (p :: part) more
  | @one _ _ q _ _ more => exact .any [p, q] more

theorem fits_any_of_fits {ws : List Wildcard} {t : Text} (h : fits ws t = true) :
    fits (.any :: ws) t = true := by
  cases t with
  | nil => rwa [fits]
  | cons p t => rw [fits, h, Bool.true_or]

theorem fits_any_append {ws : List Wildcard} {t : Text} (h : fits ws t = true) (part : Text) :
    fits (.any :: ws) (part ++ t) = true := by
  induction part with
  | nil => exact fits_any_of_fits h
  | cons p part ih => rw [List.cons_append, fits, ih, Bool.or_true]

/-- A name has the form of a pattern exactly if the pattern stands for it. -/
theorem fits_iff {ws : List Wildcard} {t : Text} : fits ws t = true ↔ Spells ws t := by
  constructor
  · intro h
    fun_induction fits ws t with
    | case1 t =>
      obtain rfl := List.isEmpty_iff.mp h
      exact .nil
    | case2 ws ih => exact .any [] (ih h)
    | case3 ws p t ih₁ ih₂ =>
      obtain h | h := Bool.or_eq_true_iff.mp h
      · exact .any [] (ih₁ h)
      · exact (ih₂ h).any_cons p
    | case4 => cases h
    | case5 w ws p t _ ih =>
      obtain ⟨hw, hmore⟩ := Bool.and_eq_true_iff.mp h
      exact .one hw (ih hmore)
  · intro h
    induction h with
    | nil => rw [fits, List.isEmpty_nil]
    | any part _ ih => exact fits_any_append ih part
    | @one w ws p t admits _ ih =>
      by_cases hw : w = .any
      · rw [hw]
        exact fits_any_append ih [p]
      · rw [fits, admits, ih, Bool.and_true]
        exact hw

end Wildcard

/-- The names that a segment of a pattern stands for on the way to a file, before the segments that
follow: no form stands for a name that leads to another folder, and `**` stands for something if
nothing follows. -/
def Segment.StandsFor (rest : List Segment) (names : List Text) : Segment → Prop
  | .name n => names = [n]
  | .form ws hidden => ∃ n, names = [n] ∧ Wildcard.Spells ws n ∧
      (isHidden n = true → hidden = true) ∧ n ≠ Path.here ∧ n ≠ Path.above
  | .folders => (∀ n ∈ names, ¬ isHidden n = true) ∧ (rest = [] → names ≠ [])

/-- The ways to files that the segments of a pattern stand for. -/
inductive Segment.Fits : List Segment → List Text → Prop
  | nil : Fits [] []
  | cons {segment : Segment} {rest : List Segment} {first names : List Text}
    (stands : segment.StandsFor rest first) (more : Fits rest names) :
    Fits (segment :: rest) (first ++ names)

namespace Segment

variable {t : FileTree} {start p q : Place} {segment : Segment} {rest segments : List Segment}
  {above first names : List Text}

theorem Fits.eq_nil_iff (h : Fits segments names) : names = [] ↔ segments = [] := by
  induction h with
  | nil => simp
  | @cons segment rest first names stands _ ih =>
    simp only [List.append_eq_nil_iff, ih, reduceCtorEq, iff_false, not_and]
    rintro rfl hrest
    cases segment with
    | name n => cases stands
    | form ws hidden =>
      obtain ⟨n, hn, -⟩ := stands
      cases hn
    | folders => exact stands.2 hrest rfl

/-- Everything before the end of a way is a folder. -/
theorem folder_of_locate (hlocate : t.locate start (above ++ names) = .ok (p, .file))
    (hnames : names ≠ []) : ∃ q, t.locate start above = .ok (q, .folder) ∧
      t.locate q names = .ok (p, .file) := by
  obtain ⟨q, s, habove, hrest⟩ := FileTree.locate_append_iff.mp hlocate
  obtain ⟨n, names, rfl⟩ := List.exists_cons_of_ne_nil hnames
  have hq := (FileTree.locate_cons_iff.mp hrest).1
  rw [FileTree.at?_of_locate habove] at hq
  obtain rfl := Option.some.inj hq
  exact ⟨q, habove, hrest⟩

/-- Something stands at the end of the first part of a way. -/
theorem at?_of_locate_append (hplain : ∀ n ∈ first, n ≠ Path.here ∧ n ≠ Path.above)
    (hlocate : t.locate q (first ++ names) = .ok (p, .file)) : (t.at? (q ++ first)).isSome := by
  obtain ⟨r, s, hr, -⟩ := FileTree.locate_append_iff.mp hlocate
  rw [← FileTree.eq_append_of_locate hplain hr, FileTree.at?_of_locate hr]
  rfl

section Expand

variable (hlocate : t.locate start (above ++ (first ++ names)) = .ok (p, .file))
include hlocate

theorem mem_expand_name {n : Text} :
    first ∈ (Segment.name n).expand t start above ↔ first = [n] := by
  rw [expand]
  split
  · exact List.mem_singleton
  · rename_i hno
    refine iff_of_false List.not_mem_nil fun hfirst => hno ?_
    rw [← List.append_assoc, hfirst] at hlocate
    obtain ⟨q, s, hq, -⟩ := FileTree.locate_append_iff.mp hlocate
    rw [hq]
    rfl

theorem mem_expand_form (ht : t.WellNamed) {ws : List Wildcard} {hidden : Bool} :
    first ∈ (Segment.form ws hidden).expand t start above ↔
      (Segment.form ws hidden).StandsFor rest first := by
  have hshown (n : Text) :
      (hidden || !isHidden n) = true ↔ (isHidden n = true → hidden = true) := by
    cases hidden <;> simp
  by_cases hfirst : first = []
  · subst hfirst
    refine iff_of_false (fun h => ?_) fun ⟨n, hn, _⟩ => List.cons_ne_nil n [] hn.symm
    rw [expand] at h
    split at h
    · simp at h
    · cases h
  · obtain ⟨q, habove, hway⟩ :=
      folder_of_locate hlocate (List.append_ne_nil_of_left_ne_nil hfirst _)
    simp only [expand, habove, List.mem_map, List.mem_filter, FileTree.mem_names_iff,
      Bool.and_eq_true, Wildcard.fits_iff, hshown]
    constructor
    · rintro ⟨n, ⟨hat, hn, hspells⟩, rfl⟩
      obtain ⟨s, hs⟩ := Option.isSome_iff_exists.mp hat
      have hproper := ht.proper_of_at? hs n (by simp)
      exact ⟨n, rfl, hspells, hn, hproper.ne_here, hproper.ne_above⟩
    · rintro ⟨n, rfl, hspells, hn, hother⟩
      exact ⟨n, ⟨at?_of_locate_append (by simpa using hother) hway, hn, hspells⟩, rfl⟩

theorem mem_expand_folders (hfits : Fits rest names) :
    first ∈ Segment.folders.expand t start above ↔ Segment.folders.StandsFor rest first := by
  by_cases hend : first ++ names = []
  · obtain ⟨rfl, hnames⟩ := List.append_eq_nil_iff.mp hend
    rw [hend, List.append_nil] at hlocate
    refine iff_of_false (fun h => ?_) fun h => h.2 (hfits.eq_nil_iff.mp hnames) rfl
    rw [expand, hlocate] at h
    cases h
  · obtain ⟨q, habove, hway⟩ := folder_of_locate hlocate hend
    simp only [expand, habove, StandsFor, List.mem_cons, List.mem_filter, FileTree.mem_below_iff,
      Bool.not_eq_true', List.any_eq_false]
    constructor
    · rintro (rfl | ⟨⟨hne, -⟩, hshown⟩)
      · exact ⟨by simp, fun hrest => absurd (hfits.eq_nil_iff.mpr hrest) hend⟩
      · exact ⟨hshown, fun _ => hne⟩
    · rintro ⟨hshown, -⟩
      by_cases hfirst : first = []
      · exact .inl hfirst
      · have hplain := fun n hn => ne_of_not_hidden (hshown n hn)
        exact .inr ⟨⟨hfirst, at?_of_locate_append hplain hway⟩, hshown⟩

/-- On a way to a file, a segment is expanded to the names that it stands for. -/
theorem mem_expand_iff (ht : t.WellNamed) (hfits : Fits rest names) :
    first ∈ segment.expand t start above ↔ segment.StandsFor rest first := by
  cases segment with
  | name n => exact mem_expand_name hlocate
  | form ws hidden => exact mem_expand_form hlocate ht
  | folders => exact mem_expand_folders hlocate hfits

end Expand

end Segment

namespace Pattern

variable {t : FileTree} {start p : Place} {names above : List Text}

/-- On a way to a file, segments are expanded to the ways that they stand for. -/
theorem mem_expandFrom_iff (ht : t.WellNamed) {segments : List Segment}
    (hlocate : t.locate start (above ++ names) = .ok (p, .file)) :
    above ++ names ∈ expandFrom t start above segments ↔ Segment.Fits segments names := by
  induction segments generalizing above names with
  | nil =>
    rw [expandFrom, List.mem_singleton, List.append_right_eq_self]
    constructor
    · rintro rfl
      exact .nil
    · intro h
      cases h
      rfl
  | cons segment rest ih =>
    rw [expandFrom, List.mem_flatMap]
    constructor
    · rintro ⟨first, hfirst, hmore⟩
      obtain ⟨names', hnames'⟩ := prefix_of_mem_expandFrom hmore
      rw [List.append_assoc, List.append_cancel_left_eq] at hnames'
      subst hnames'
      rw [← List.append_assoc] at hmore
      have hfits := (ih (by rwa [List.append_assoc])).mp hmore
      exact .cons ((Segment.mem_expand_iff hlocate ht hfits).mp hfirst) hfits
    · rintro (_ | ⟨hstands, hfits⟩)
      refine ⟨_, (Segment.mem_expand_iff hlocate ht hfits).mpr hstands, ?_⟩
      rw [← List.append_assoc] at hlocate ⊢
      exact (ih hlocate).mpr hfits

/-- A pattern finds a file by a way from a folder: it stands for the way, and the way leads to the
file. A pattern with a slash at the end finds none. -/
def Finds (t : FileTree) (working : Place) (pattern : Pattern) (names : List Text) (p : Place) :
    Prop :=
  pattern.forFolders = false ∧ Segment.Fits pattern.segments names ∧
    t.locate (FileTree.start working pattern.anchor) names = .ok (p, .file)

theorem mem_filesOf_iff_finds (ht : t.WellNamed) {pattern : Pattern} {working : Place} :
    (names, p) ∈ pattern.filesOf t working ↔ pattern.Finds t working names p := by
  rw [mem_filesOf_iff, Finds]
  refine and_congr_right fun _ => and_congr_left fun hlocate => ?_
  rw [← List.nil_append names] at hlocate ⊢
  exact mem_expandFrom_iff ht hlocate

end Pattern

end Localization
