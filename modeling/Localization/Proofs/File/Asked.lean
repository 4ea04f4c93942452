import Localization.Proofs.File.Pattern

/-! What the written paths of a search ask for, said without a walk through the tree. A search finds
just that, each file once, and in the order of places, which is that of the names on the way from
the root. -/

namespace Localization

/-- A place as it is ordered: the numbers of the code points of each name. -/
def Place.numbers (p : Place) : List (List Nat) := p.map fun n => n.map CodePoint.toNat

theorem lt_of_dictionaryLe {as bs : List Nat} (h : dictionaryLe as bs = true) (hne : as ≠ bs) :
    as < bs := by
  induction as generalizing bs with
  | nil =>
    obtain ⟨b, bs, rfl⟩ := List.exists_cons_of_ne_nil hne.symm
    exact List.nil_lt_cons b bs
  | cons a as ih =>
    cases bs with
    | nil => cases h
    | cons b bs =>
      simp only [dictionaryLe, Bool.or_eq_true, Bool.and_eq_true, decide_eq_true_eq,
        beq_iff_eq] at h
      rw [List.cons_lt_cons_iff]
      obtain hab | ⟨rfl, hle⟩ := h
      · exact .inl hab
      · exact .inr ⟨rfl, ih hle fun has => hne (by rw [has])⟩

theorem Place.numbers_lt_of_le {p q : Place} (h : le p q = true) (hne : p ≠ q) :
    p.numbers < q.numbers := by
  induction p generalizing q with
  | nil =>
    obtain ⟨b, bs, rfl⟩ := List.exists_cons_of_ne_nil hne.symm
    exact List.nil_lt_cons _ _
  | cons a as ih =>
    cases q with
    | nil => cases h
    | cons b bs =>
      rw [numbers, numbers, List.map_cons, List.map_cons, List.cons_lt_cons_iff]
      rw [le] at h
      split at h
      · rename_i hab
        subst hab
        exact .inr ⟨rfl, ih h fun has => hne (by rw [has])⟩
      · rename_i hab
        refine .inl (lt_of_dictionaryLe h fun hmap => hab ?_)
        exact List.map_inj_right (fun _ _ => CodePoint.toNat_injective) |>.mp hmap

namespace Discovery

/-- What a written path asks for in a tree: the file of the kind that it leads to; if it leads to a
folder, the files of the kind below it that are in no folder of dependencies there; if it leads to
neither, the files of the kind that it finds as a pattern, by a way that has no such folder. -/
inductive Asks (t : FileTree) (working : Place) (k : FileKind) (written : Text) : Place → Prop
  | file {p : Place} (leads : t.reach working (.ofText written) = .ok (p, .file))
    (kind : k.admits (Path.ofText written).name = true) : Asks t working k written p
  | folder {p : Place} {between : List Text} {name : Text}
    (leads : t.reach working (.ofText written) = .ok (p, .folder))
    (stands : t.at? (p ++ between ++ [name]) = some .file) (kind : k.admits name = true)
    (outside : dependencies ∉ between) : Asks t working k written (p ++ between ++ [name])
  | pattern {p : Place} {way : List Text}
    (neither : ∀ q s, t.reach working (.ofText written) = .ok (q, s) →
      s = .file ∧ k.admits (Path.ofText written).name = false)
    (finds : (Pattern.ofText written).Finds t working way p) (kind : k.admits (nameAt p) = true)
    (outside : dependencies ∉ way) : Asks t working k written p

variable {t : FileTree} {working p : Place} {k : FileKind} {written : Text}

/-- No file of a kind has the name of a folder of dependencies. -/
theorem not_admits_dependencies (k : FileKind) : k.admits dependencies = false := by
  cases k <;> decide

theorem mem_inFolder_iff_between {folder : Place} : p ∈ inFolder t k folder ↔
    ∃ between name, p = folder ++ between ++ [name] ∧ t.at? p = some .file ∧
      k.admits name = true ∧ dependencies ∉ between := by
  rw [mem_inFolder_iff]
  constructor
  · rintro ⟨hkind, hat, names, hne, houtside, rfl⟩
    obtain ⟨between, name, rfl⟩ := (List.eq_nil_or_concat names).resolve_left hne
    rw [List.concat_eq_append, ← List.append_assoc] at hkind hat ⊢
    rw [nameAt, List.getLast?_concat, Option.getD_some] at hkind
    refine ⟨between, name, rfl, hat, hkind, fun hmem => houtside ?_⟩
    exact List.concat_eq_append ▸ List.mem_append_left _ hmem
  · rintro ⟨between, name, rfl, hat, hkind, houtside⟩
    have hname : dependencies ≠ name := by
      rintro rfl
      rw [not_admits_dependencies] at hkind
      cases hkind
    refine ⟨by rwa [nameAt, List.getLast?_concat, Option.getD_some], hat, between ++ [name],
      by simp, ?_, List.append_assoc _ _ _⟩
    simp [houtside, hname]

theorem mem_byPattern_iff_finds (ht : t.WellNamed) : p ∈ byPattern t working k written ↔
    ∃ way, (Pattern.ofText written).Finds t working way p ∧ k.admits (nameAt p) = true ∧
      dependencies ∉ way := by
  simp only [mem_byPattern_iff, Pattern.mem_filesOf_iff_finds ht, and_comm]

/-- Of a path that leads to a file of the kind, that file is asked for. -/
theorem asks_iff_of_file {q : Place} (hreach : t.reach working (.ofText written) = .ok (q, .file))
    (hkind : k.admits (Path.ofText written).name = true) :
    Asks t working k written p ↔ p = q := by
  constructor
  · rintro (⟨leads, -⟩ | ⟨leads, -, -, -⟩ | ⟨neither, -, -, -⟩)
    · cases hreach.symm.trans leads
      rfl
    · cases hreach.symm.trans leads
    · exact absurd hkind (by simp [(neither _ _ hreach).2])
  · rintro rfl
    exact .file hreach hkind

/-- Of a path that leads to a folder, what is in the folder is asked for. -/
theorem asks_iff_of_folder {q : Place}
    (hreach : t.reach working (.ofText written) = .ok (q, .folder)) :
    Asks t working k written p ↔ p ∈ inFolder t k q := by
  rw [mem_inFolder_iff_between]
  constructor
  · rintro (⟨leads, -⟩ | ⟨leads, stands, kind, outside⟩ | ⟨neither, -, -, -⟩)
    · cases hreach.symm.trans leads
    · cases hreach.symm.trans leads
      exact ⟨_, _, rfl, stands, kind, outside⟩
    · cases (neither _ _ hreach).1
  · rintro ⟨between, name, rfl, hat, hkind, houtside⟩
    exact .folder hreach hat hkind houtside

/-- Of every other path, what the pattern finds is asked for. -/
theorem asks_iff_of_neither (ht : t.WellNamed)
    (hneither : ∀ q s, t.reach working (.ofText written) = .ok (q, s) →
      s = .file ∧ k.admits (Path.ofText written).name = false) :
    Asks t working k written p ↔ p ∈ byPattern t working k written := by
  rw [mem_byPattern_iff_finds ht]
  constructor
  · rintro (⟨leads, kind⟩ | ⟨leads, -, -, -⟩ | ⟨-, finds, kind, outside⟩)
    · exact absurd kind (by simp [(hneither _ _ leads).2])
    · cases (hneither _ _ leads).1
    · exact ⟨_, finds, kind, outside⟩
  · rintro ⟨way, hfinds, hkind, houtside⟩
    exact .pattern hneither hfinds hkind houtside

/-- A written path names what it asks for. -/
theorem mem_named_iff (ht : t.WellNamed) :
    p ∈ named t working k written ↔ Asks t working k written p := by
  rw [named]
  cases hreach : t.reach working (.ofText written) with
  | error e => exact (asks_iff_of_neither ht fun q s h => by cases hreach.symm.trans h).symm
  | ok r =>
    obtain ⟨q, s⟩ := r
    cases s with
    | folder => exact (asks_iff_of_folder hreach).symm
    | file =>
      dsimp only
      split
      next hkind => rw [asks_iff_of_file hreach hkind, List.mem_singleton]
      next hkind =>
        refine (asks_iff_of_neither ht fun q' s' h => ?_).symm
        cases hreach.symm.trans h
        exact ⟨rfl, eq_false_of_ne_true hkind⟩

/-- Places that are found come in order, and none comes twice. -/
theorem find_pairwise (t : FileTree) (working : Place) (k : FileKind) (paths : List Text) :
    (find t working k paths).Pairwise fun p q => p.numbers < q.numbers := by
  have hsorted : (find t working k paths).Pairwise fun p q => Place.le p q = true :=
    List.pairwise_mergeSort (fun p q r => @Place.le_trans p q r) Place.le_total _
  have hnodup : (find t working k paths).Nodup :=
    (List.mergeSort_perm _ _).nodup_iff.mpr (nodup_eraseDups _)
  exact (hsorted.and hnodup).imp fun h => Place.numbers_lt_of_le h.1 h.2

/-- A search finds the files of the kind that its paths ask for and no others, in the strict order
of their names from the root, at places to which they lead from every folder. So it does not matter
in which order paths are written, or how often. -/
theorem find_asked (ht : t.WellNamed) (working : Place) (k : FileKind) (paths : List Text) :
    (∀ p ∈ find t working k paths, k.admits (nameAt p) = true ∧
        ∀ folder, t.reach folder (.ofPlace p) = .ok (p, .file)) ∧
      (find t working k paths).Pairwise (fun p q => p.numbers < q.numbers) ∧
      (∀ p, p ∈ find t working k paths ↔ ∃ written ∈ paths, Asks t working k written p) ∧
      ∀ paths', (∀ written, written ∈ paths' ↔ written ∈ paths) →
        find t working k paths' = find t working k paths := by
  refine ⟨fun p hp => ⟨admits_of_mem_find hp, fun folder => ?_⟩, find_pairwise t working k paths,
    fun p => ?_, fun paths' hpaths => find_eq_of_mem_iff fun p => ?_⟩
  · have hfile := at?_of_mem_find hp
    have hproper := ht.proper_of_at? hfile
    exact FileTree.locate_of_at? (p := [])
      (fun n hn => ⟨(hproper n hn).ne_here, (hproper n hn).ne_above⟩) hfile
  · simp only [mem_find_iff, mem_named_iff ht]
  · simp only [mem_find_iff, hpaths]

/-- Files that several paths ask for, some of them in folders of dependencies. -/
def overlappingTree : FileTree where
  files := [(["src", ".rc.js"], []), (["src", "main", "notes.md"], []),
    (["src", "main", "part.ts"], []), (["src", "main.ts"], []),
    (["src", "node_modules", "dep", "index.js"], []), (["node_modules", "dep", "index.js"], [])]

/-- Each file is found once. The folder of dependencies that a path leads into is searched, and a
file that begins with a dot is found in a folder, not by the pattern. -/
theorem find_asked_overlapping :
    let paths : List Text := ["src", "./src/../src/main.ts", "**/*.ts", "src/node_modules/dep"]
    let paths' : List Text :=
      ["src/node_modules/dep", "src", "**/*.ts", "src", "./src/../src/main.ts"]
    let found : List (List Text) := [["src", ".rc.js"], ["src", "main", "part.ts"],
      ["src", "main.ts"], ["src", "node_modules", "dep", "index.js"]]
    overlappingTree.WellNamed ∧ (∀ written, written ∈ paths' ↔ written ∈ paths) ∧
      find overlappingTree [] .script paths' = found ∧
      ¬ ∃ written ∈ paths,
        Asks overlappingTree [] .script written ["node_modules", "dep", "index.js"] := by
  intro paths paths' found
  have ht : overlappingTree.WellNamed := by decide +kernel
  have hsub : ∀ written ∈ paths', written ∈ paths := by decide
  have hsub' : ∀ written ∈ paths, written ∈ paths' := by decide
  have hpaths : ∀ written, written ∈ paths' ↔ written ∈ paths := fun written =>
    ⟨hsub written, hsub' written⟩
  have hfound : find overlappingTree [] .script paths = found :=
    find_eq (by decide +kernel) (by decide +kernel)
  obtain ⟨-, -, hasked, hsame⟩ := find_asked ht [] .script paths
  refine ⟨ht, hpaths, (hsame paths' hpaths).trans hfound, ?_⟩
  rw [← hasked, hfound]
  decide

end Discovery

end Localization
