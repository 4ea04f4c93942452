import Localization.Proofs.Xliff.Rendered

/-! Which entries of bundles have units in a document. Of bundles under one name the last one
counts, so an entry of another one has a unit only if the last one has an entry with the same
unit. -/

namespace Localization.Xliff

/-- A file with the units of the entries of a bundle. -/
def FileFrom (b : Text × Bundle) (file : Text × List TransUnit) : Prop :=
  b.1 = file.1 ∧ b.2.mapM (fun e => TransUnit.ofEntry e.1 e.2) = .ok file.2

theorem add_eq_ok {d d' : Document} {b : Text × Bundle} (h : d.add b.1 b.2 = .ok d') :
    (b.2.isEmpty = true ∧ d' = d) ∨ (b.2.isEmpty = false ∧ ∃ units,
      FileFrom b (b.1, units) ∧ d' = { d with files := d.files.put b.1 units }) := by
  rw [Document.add] at h
  split at h
  · rename_i hempty
    exact .inl ⟨hempty, (Except.ok.inj h).symm⟩
  · rename_i hempty
    obtain ⟨units, hunits, h⟩ := bind_eq_ok_iff.mp h
    exact .inr ⟨by simpa using hempty, units, ⟨rfl, hunits⟩, (Except.ok.inj h).symm⟩

theorem foldlM_add_eq_ok {bundles kept : Fields Bundle} {d d' : Document}
    (h : bundles.foldlM (fun d e => d.add e.1 e.2) d = .ok d')
    (hkept : List.Forall₂ FileFrom kept d.files) :
    d'.sourceLanguage = d.sourceLanguage ∧
      List.Forall₂ FileFrom ((bundles.filter fun b => !b.2.isEmpty).foldl
        (fun m b => Fields.put b.1 b.2 m) kept) d'.files := by
  induction bundles generalizing kept d with
  | nil =>
    obtain rfl := Except.ok.inj h
    exact ⟨rfl, hkept⟩
  | cons b bundles ih =>
    rw [List.foldlM_cons] at h
    obtain ⟨e, hadd, hrest⟩ := bind_eq_ok_iff.mp h
    obtain ⟨hempty, rfl⟩ | ⟨hempty, units, hunits, rfl⟩ := add_eq_ok hadd
    · rw [List.filter_cons_of_neg (by simp [hempty])]
      exact ih hrest hkept
    · rw [List.filter_cons_of_pos (by simp [hempty]), List.foldl_cons]
      have hfiles := ih hrest (Fields.forall₂_put (fun hab => hab.1) hkept hunits)
      exact hfiles

/-- The files of a document are those of the bundles that it has files for. -/
theorem files_of_ofBundles {source : Text} {bundles : Fields Bundle} {d : Document}
    (h : Document.ofBundles source bundles = .ok d) :
    d.sourceLanguage = source ∧ List.Forall₂ FileFrom (added bundles) d.files :=
  foldlM_add_eq_ok h .nil

/-- A bundle that a document has a file for is the last one of its name. -/
theorem mem_added_ofList {bundles : List (Text × Bundle)} {b : Text × Bundle} :
    b ∈ added (Fields.ofList bundles) ↔ Fields.IsLast bundles b ∧ b.2.isEmpty = false := by
  have hkeys : Fields.keys ((Fields.ofList bundles).filter fun b => !b.2.isEmpty) |>.Nodup :=
    (Fields.nodup_keys_ofList bundles).sublist (List.filter_sublist.map _)
  rw [added, Fields.ofList_eq_self hkeys, List.mem_filter, Fields.mem_ofList_iff]
  simp

/-- A document has the unit of an entry in a file of a name. -/
def Document.Holds (d : Document) (name : Text) (e : Text × Json) : Prop :=
  ∃ u units, TransUnit.ofEntry e.1 e.2 = .ok u ∧ (name, units) ∈ d.files ∧ u ∈ units

/-- A document that is made of bundles holds an entry exactly if the last bundle of the name has an
entry with the same unit. -/
theorem holds_iff {source : Text} {bundles : List (Text × Bundle)} {d : Document}
    (h : Document.ofBundles source (Fields.ofList bundles) = .ok d) {name : Text}
    {e : Text × Json} : d.Holds name e ↔ ∃ b, Fields.IsLast bundles b ∧ b.1 = name ∧
      ∃ f ∈ b.2, TransUnit.ofEntry f.1 f.2 = TransUnit.ofEntry e.1 e.2 := by
  obtain ⟨-, hfiles⟩ := files_of_ofBundles h
  constructor
  · rintro ⟨u, units, hu, hfile, hmem⟩
    obtain ⟨b, hb, hname, hunits⟩ := exists_of_forall₂ hfiles.flip _ hfile
    obtain ⟨f, hf, hfu⟩ := exists_of_forall₂ (mapM_eq_ok_iff.mp hunits).flip u hmem
    exact ⟨b, (mem_added_ofList.mp hb).1, hname, f, hf, hfu.trans hu.symm⟩
  · rintro ⟨b, hb, rfl, f, hf, hsame⟩
    have hne : b.2.isEmpty = false := by
      cases hbundle : b.2 with
      | nil => rw [hbundle] at hf; cases hf
      | cons _ _ => rfl
    obtain ⟨⟨name, units⟩, hfile, rfl, hunits⟩ :=
      exists_of_forall₂ hfiles b (mem_added_ofList.mpr ⟨hb, hne⟩)
    obtain ⟨u, hu, hfu⟩ := exists_of_forall₂ (mapM_eq_ok_iff.mp hunits) f hf
    exact ⟨u, units, hsame ▸ hfu, hfile, hu⟩

/-- A text has the lines of a unit, and those of other units perhaps, as a file of a name. -/
def HasUnit (doc language name : Text) (u : TransUnit) : Prop :=
  ∃ (before : List Text) (lss : List (List Text)) (ls after : List Text),
    u.lines? language = some ls ∧ ls ∈ lss ∧
    (∀ l ∈ lss, ∃ v : TransUnit, v.lines? language = some l) ∧
    doc = Text.join crlf (before ++ (fileHead language name :: lss.flatten ++
      [Text.ofString "  </body></file>"]) ++ after)

/-- What a document holds is written in its text. -/
theorem Document.Holds.hasUnit {d : Document} {name : Text} {e : Text × Json} (h : d.Holds name e)
    {doc : Text} (hdoc : d.render? = some doc) :
    ∃ u, TransUnit.ofEntry e.1 e.2 = .ok u ∧ HasUnit doc d.sourceLanguage name u := by
  obtain ⟨u, units, hu, hfile, hmem⟩ := h
  obtain ⟨files, hfiles, rfl⟩ := render?_eq_some hdoc
  obtain ⟨ls, hls, hlines⟩ :=
    exists_of_forall₂ hfiles _ ((Text.sortBy16_perm _ _).mem_iff.mpr hfile)
  obtain ⟨body, hbody, rfl⟩ := fileLines?_eq_some hlines
  obtain ⟨uls, huls, hulines⟩ := exists_of_forall₂ hbody u ((sorted_perm _).mem_iff.mpr hmem)
  obtain ⟨before, after, rfl⟩ := List.append_of_mem hls
  refine ⟨u, hu, .ofChars Xml.declaration :: .ofChars rootTag :: before.flatten, body, uls,
    after.flatten ++ [.ofChars rootEnd], hulines, huls, fun l hl => ?_, by simp⟩
  obtain ⟨v, -, hv⟩ := exists_of_forall₂ hbody.flip l hl
  exact ⟨v, hv⟩

end Localization.Xliff
