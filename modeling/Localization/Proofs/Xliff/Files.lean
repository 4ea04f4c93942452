import Localization.Proofs.Fields
import Localization.Proofs.Xliff.Unit

/-! The files of a document: one for every name under which a bundle with entries was added, with
the units of the last such bundle. -/

namespace Localization

theorem Fields.forall₂_put {β γ : Type} {R : Text × β → Text × γ → Prop}
    (hkeys : ∀ {a b}, R a b → a.1 = b.1) {m : Fields β} {n : Fields γ} (h : List.Forall₂ R m n)
    {k : Text} {v : β} {w : γ} (hv : R (k, v) (k, w)) :
    List.Forall₂ R (m.put k v) (n.put k w) := by
  induction h with
  | nil => exact .cons hv .nil
  | @cons a b m n hab hmn ih =>
    obtain ⟨i, x⟩ := a
    obtain ⟨j, y⟩ := b
    obtain rfl : i = j := hkeys hab
    by_cases hi : i = k
    · simp only [put, hi, if_true]
      exact .cons hv hmn
    · simp only [put, hi, if_false]
      exact .cons hab ih

namespace Xliff

/-- The bundles that a document has files for: under every name the last one with entries. -/
def added (bundles : Fields Bundle) : Fields Bundle :=
  .ofList (bundles.filter fun b => !b.2.isEmpty)

theorem added_eq_self {bundles : Fields Bundle} (hkeys : bundles.keys.Nodup)
    (hne : ∀ b ∈ bundles, b.2 ≠ []) : added bundles = bundles := by
  have hall : bundles.filter (fun b => !b.2.isEmpty) = bundles :=
    List.filter_eq_self.mpr fun b hb => by simpa using hne b hb
  rw [added, hall, Fields.ofList_eq_self hkeys]

theorem sorted_perm (units : List TransUnit) : (TransUnit.sorted units).Perm units :=
  (Text.sortBy16_perm _ _).trans (List.reverse_perm _)

/-- A unit stands for an entry. -/
def UnitFor (e : Text × Json) (u : TransUnit) : Prop :=
  ∃ m, Bundle.message? e.2 = some m ∧ StandsFor e.1 m u

/-- A file stands for a bundle. -/
def FileFor (b : Text × Bundle) (file : Text × List TransUnit) : Prop :=
  b.1 = file.1 ∧ List.Forall₂ UnitFor b.2 file.2

theorem units_of_entries {b : Bundle} (h : ∀ e ∈ b, (Bundle.message? e.2).isSome) :
    ∃ units, (b.mapM fun e => TransUnit.ofEntry e.1 e.2) = (.ok units : Except ShapeError _) ∧
      List.Forall₂ UnitFor b units := by
  refine mapM_forall₂ (m := Except ShapeError) fun e he => ?_
  obtain ⟨m, hm⟩ := Option.isSome_iff_exists.mp (h e he)
  obtain ⟨u, hu, hstands⟩ := ofEntry_eq e.1 hm
  exact ⟨u, hu, m, hm, hstands⟩

theorem add_eq {b : Text × Bundle} (h : ∀ e ∈ b.2, (Bundle.message? e.2).isSome)
    (hne : b.2.isEmpty = false) (source : Text) (files : Fields (List TransUnit)) :
    ∃ units, Document.add ⟨source, files⟩ b.1 b.2 = .ok ⟨source, files.put b.1 units⟩ ∧
      List.Forall₂ UnitFor b.2 units := by
  obtain ⟨units, hunits, hfor⟩ := units_of_entries h
  refine ⟨units, ?_, hfor⟩
  rw [Document.add, hne, hunits]
  rfl

theorem foldlM_add {bundles : Fields Bundle}
    (h : ∀ b ∈ bundles, ∀ e ∈ b.2, (Bundle.message? e.2).isSome) (source : Text)
    {kept : Fields Bundle} {files : Fields (List TransUnit)}
    (hkept : List.Forall₂ FileFor kept files) : ∃ files',
      bundles.foldlM (fun d e => d.add e.1 e.2) ⟨source, files⟩ =
        (.ok ⟨source, files'⟩ : Except ShapeError Document) ∧
      List.Forall₂ FileFor ((bundles.filter fun b => !b.2.isEmpty).foldl
        (fun m b => Fields.put b.1 b.2 m) kept) files' := by
  induction bundles generalizing kept files with
  | nil => exact ⟨files, rfl, hkept⟩
  | cons b bundles ih =>
    have hrest : ∀ c ∈ bundles, ∀ e ∈ c.2, (Bundle.message? e.2).isSome :=
      fun c hc => h c (List.mem_cons_of_mem _ hc)
    cases hempty : b.2.isEmpty with
    | true =>
      have hadd : Document.add ⟨source, files⟩ b.1 b.2 = .ok ⟨source, files⟩ := by
        rw [Document.add, hempty, if_pos rfl]
      rw [List.foldlM_cons, hadd, List.filter_cons_of_neg (by simp [hempty])]
      exact ih hrest hkept
    | false =>
      obtain ⟨units, hadd, hfor⟩ := add_eq (h b (by simp)) hempty source files
      rw [List.foldlM_cons, hadd, List.filter_cons_of_pos (by simp [hempty]), List.foldl_cons]
      exact ih hrest (Fields.forall₂_put (fun hab => hab.1) hkept ⟨rfl, hfor⟩)

/-- The files of a document stand for the bundles that it has files for. -/
theorem ofBundles_files {bundles : Fields Bundle}
    (h : ∀ b ∈ bundles, ∀ e ∈ b.2, (Bundle.message? e.2).isSome) (source : Text) :
    ∃ files, Document.ofBundles source bundles = .ok ⟨source, files⟩ ∧
      List.Forall₂ FileFor (added bundles) files :=
  foldlM_add h source .nil

end Xliff

end Localization
