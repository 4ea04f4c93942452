import Localization.File.Naming
import Localization.Proofs.File
import Mathlib.Data.Fintype.EquivFin

/-! Paths that lead below the folder that they are followed from, whatever folder that is: they
begin at no root, and never have more names `..` than other names before them. -/

namespace Localization

/-- A place is that of something in a folder, at any depth. -/
def Place.Below (folder p : Place) : Prop := ∃ names, names ≠ [] ∧ p = folder ++ names

/-- How far below the folder where they begin names end, if `depth` names led below it before;
nothing if they lead above it on the way. -/
def Place.descent? : (depth : Nat) → List Text → Option Nat
  | depth, [] => some depth
  | depth, n :: rest =>
    if n = Path.above then
      if depth = 0 then none else descent? (depth - 1) rest
    else descent? (depth + 1) rest

/-- A path that ends below the folder that it is followed from, and does not leave it on the way. -/
def Path.Descends (p : Path) : Prop :=
  p.anchor = .working ∧ ∃ depth, 0 < depth ∧ Place.descent? 0 p.names = some depth

namespace Place

theorem follow_cons_above (p : Place) (rest : List Text) :
    p.follow (Path.above :: rest) = Place.follow p.dropLast rest := by
  rw [follow, List.foldl_cons, if_pos rfl, ← follow]

theorem follow_cons_of_ne {n : Text} (hn : n ≠ Path.above) (p : Place) (rest : List Text) :
    p.follow (n :: rest) = Place.follow (p ++ [n]) rest := by
  rw [follow, List.foldl_cons, if_neg hn, ← follow]

/-- Names that do not lead above a folder end as far below it as they say. -/
theorem follow_of_descent (folder more : Place) {names : List Text} {depth : Nat}
    (h : descent? more.length names = some depth) :
    ∃ ms : List Text, ms.length = depth ∧ (folder ++ more).follow names = folder ++ ms := by
  induction names generalizing more with
  | nil => exact ⟨more, Option.some.inj h, rfl⟩
  | cons n rest ih =>
    rw [descent?] at h
    split at h
    · rename_i habove
      obtain rfl := habove
      split at h
      · cases h
      · rename_i hmore
        rw [follow_cons_above,
          List.dropLast_append_of_ne_nil (List.length_eq_zero_iff.not.mp hmore)]
        exact ih _ (by rwa [List.length_dropLast])
    · rename_i hn
      rw [follow_cons_of_ne hn, List.append_assoc]
      exact ih _ (by rwa [List.length_append, List.length_singleton])

theorem not_mem_follow {x : Text} {p : Place} {names : List Text} (hp : x ∉ p) (hnames : x ∉ names) :
    x ∉ p.follow names := by
  induction names generalizing p with
  | nil => exact hp
  | cons n rest ih =>
    rw [List.mem_cons, not_or] at hnames
    by_cases hn : n = Path.above
    · obtain rfl := hn
      rw [follow_cons_above]
      exact ih (fun h => hp (List.mem_of_mem_dropLast h)) hnames.2
    · rw [follow_cons_of_ne hn]
      exact ih (by simp [hp, hnames.1]) hnames.2

/-- Names that lead above a folder on the way do not lead back to it, unless they have its name. -/
theorem not_mem_follow_of_descent {x : Text} {more : Place} {names : List Text} (hmore : x ∉ more)
    (hnames : x ∉ names) (h : descent? more.length names = none) :
    x ∉ Place.follow (x :: more) names := by
  induction names generalizing more with
  | nil => cases h
  | cons n rest ih =>
    rw [List.mem_cons, not_or] at hnames
    rw [descent?] at h
    split at h
    · rename_i habove
      obtain rfl := habove
      rw [follow_cons_above]
      split at h
      · rename_i hnone
        obtain rfl := List.length_eq_zero_iff.mp hnone
        exact not_mem_follow (by simp) hnames.2
      · rename_i hsome
        rw [List.dropLast_cons_of_ne_nil (List.length_eq_zero_iff.not.mp hsome)]
        exact ih (fun hx => hmore (List.mem_of_mem_dropLast hx)) hnames.2
          (by rwa [List.length_dropLast])
    · rename_i hn
      rw [follow_cons_of_ne hn, List.cons_append]
      exact ih (by simp [hmore, hnames.1]) hnames.2
        (by rwa [List.length_append, List.length_singleton])

end Place

theorem Path.exists_name_not_mem (names : List Text) : ∃ x : Text, x ∉ names := by
  obtain ⟨x, hx⟩ := Infinite.exists_notMem_finset names.toFinset
  exact ⟨x, fun h => hx (List.mem_toFinset.mpr h)⟩

/-- A path descends exactly if it leads below every folder that it is followed from. -/
theorem Path.descends_iff {p : Path} :
    p.Descends ↔ ∀ folder, Place.Below folder (FileTree.target folder p) := by
  constructor
  · rintro ⟨hanchor, depth, hpos, hdescent⟩ folder
    obtain ⟨ms, hlen, hfollow⟩ := Place.follow_of_descent folder [] hdescent
    refine ⟨ms, List.ne_nil_of_length_pos (hlen ▸ hpos), ?_⟩
    rw [FileTree.target, hanchor, FileTree.start, ← hfollow, List.append_nil]
  · intro h
    obtain ⟨x, hx⟩ := exists_name_not_mem p.names
    obtain ⟨ms, hms, htarget⟩ := h [x]
    have hmem : x ∈ FileTree.target [x] p := by simp [htarget]
    have hanchor : p.anchor = .working := by
      by_contra hroot
      have hstart : FileTree.start [x] p.anchor = [] := by
        cases hp : p.anchor with
        | working => exact absurd hp hroot
        | _ => rfl
      rw [FileTree.target, hstart] at hmem
      exact Place.not_mem_follow (by simp) hx hmem
    rw [FileTree.target, hanchor, FileTree.start] at hmem htarget
    refine ⟨hanchor, ?_⟩
    cases hdescent : Place.descent? 0 p.names with
    | none => exact absurd hmem (Place.not_mem_follow_of_descent (by simp) hx hdescent)
    | some depth =>
      refine ⟨depth, ?_, rfl⟩
      obtain ⟨ns, hlen, hfollow⟩ := Place.follow_of_descent [x] [] hdescent
      rw [List.append_nil, htarget] at hfollow
      rw [← hlen, ← List.append_cancel_left hfollow]
      exact List.length_pos_of_ne_nil hms

namespace Path

/-- Text without a slash. -/
def IsName (t : Text) : Prop := ∀ p ∈ t, p.isChar '/' = false

instance (t : Text) : Decidable (IsName t) := inferInstanceAs (Decidable (∀ p ∈ t, _))

theorem segments_of_isName {t : Text} (h : IsName t) : segments t = [t] := by
  induction t with
  | nil => rfl
  | cons p t ih =>
    obtain ⟨hp, ht⟩ := List.forall_mem_cons.mp h
    rw [segments, hp, ih ht]
    rfl

theorem ofText_of_isName {t : Text} (h : IsName t) (hne : t ≠ []) (hhere : t ≠ here) :
    ofText t = ⟨.working, [t]⟩ := by
  have hanchor : anchorOf t = .working := by
    cases t with
    | nil => exact absurd rfl hne
    | cons p t => rw [anchorOf, List.takeWhile_cons_of_neg (by simp [h p])]; rfl
  rw [ofText, hanchor, segments_of_isName h, List.filter_cons_of_pos (by simp [hne, hhere]),
    List.filter_nil]

end Path

namespace Naming

variable {bundle language : Text}

theorem translatedName_ne (bundle language : Text) {t : Text} (ht : t.length < 5) :
    translatedName bundle language ≠ t := by
  have hlen : 5 ≤ (translatedName bundle language).length := by
    rw [translatedName, List.length_append]
    exact Nat.le_add_left _ _
  rintro rfl
  omega

theorem isName_translatedName (hbundle : Path.IsName bundle) (hlanguage : Path.IsName language) :
    Path.IsName (translatedName bundle language) := by
  have hplain (kind : Text) (hkind : Path.IsName kind) :
      Path.IsName (bundle ++ kind ++ language ++ ".json") := by
    intro p hp
    simp only [List.mem_append] at hp
    obtain ((hp | hp) | hp) | hp := hp
    · exact hbundle p hp
    · exact hkind p hp
    · exact hlanguage p hp
    · exact (by decide : Path.IsName ".json") p hp
  rw [translatedName]
  split
  · exact hplain _ (by decide)
  · exact hplain _ (by decide)

theorem ofText_translatedName (hbundle : Path.IsName bundle) (hlanguage : Path.IsName language) :
    Path.ofText (translatedName bundle language) = ⟨.working, [translatedName bundle language]⟩ :=
  Path.ofText_of_isName (isName_translatedName hbundle hlanguage)
    (translatedName_ne _ _ (by decide)) (translatedName_ne _ _ (by decide))

/-- The file of a translated bundle whose name and language have no slash stands in the folder
itself. -/
theorem target_translatedName (hbundle : Path.IsName bundle) (hlanguage : Path.IsName language)
    (folder : Place) : FileTree.target folder (Path.ofText (translatedName bundle language)) =
      folder ++ [translatedName bundle language] := by
  rw [ofText_translatedName hbundle hlanguage, FileTree.target, FileTree.start,
    Place.follow_cons_of_ne (translatedName_ne _ _ (by decide))]
  rfl

end Naming

end Localization
