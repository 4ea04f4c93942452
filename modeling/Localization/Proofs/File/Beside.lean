import Localization.Proofs.File.Below
import Localization.Proofs.File.Unsought

/-! Files that are written beside files that are there. All folders before them are there too, so
nothing else is made, and a file whose name is not sought changes no search. -/

namespace Localization

/-- Text that can be the name of a file or folder. -/
structure Path.Proper (n : Text) : Prop where
  ne_nil : n ≠ []
  isName : IsName n
  ne_here : n ≠ here
  ne_above : n ≠ above

instance (n : Text) : Decidable (Path.Proper n) :=
  decidable_of_iff (n ≠ [] ∧ Path.IsName n ∧ n ≠ Path.here ∧ n ≠ Path.above)
    ⟨fun ⟨h, h₁, h₂, h₃⟩ => ⟨h, h₁, h₂, h₃⟩, fun ⟨h, h₁, h₂, h₃⟩ => ⟨h, h₁, h₂, h₃⟩⟩

namespace FileTree

/-- Files and folders have names that they can have, as they do wherever there are files. -/
def WellNamed (t : FileTree) : Prop := ∀ p ∈ t.given, ∀ n ∈ p, Path.Proper n

instance (t : FileTree) : Decidable t.WellNamed :=
  inferInstanceAs (Decidable (∀ p ∈ t.given, ∀ n ∈ p, Path.Proper n))

variable {t : FileTree} {p folder : Place} {n : Text} {bytes : List UInt8} {s : Standing}

theorem WellNamed.proper_of_at? (h : t.WellNamed) (hp : t.at? p = some s) :
    ∀ n ∈ p, Path.Proper n := by
  intro n hn
  obtain ⟨q, hq, hway⟩ := (exists_given_iff (List.ne_nil_of_mem hn)).mpr (by rw [hp]; rfl)
  exact h q hq n (hway.subset hn)

theorem at?_folder_of_append {names : List Text} (h : t.at? (p ++ names) = some .folder) :
    t.at? p = some .folder := by
  cases names with
  | nil => rwa [List.append_nil] at h
  | cons n rest => exact at?_of_append (List.cons_ne_nil n rest) (by rw [h]; rfl)

/-- Folders that are there need not be made. -/
theorem makeFolders_of_at? {made : Bool} {names : List Text} (hnames : Path.above ∉ names)
    (h : t.at? (p ++ names) = some .folder) :
    t.makeFolders made p names = (t, .ok (p ++ names)) := by
  induction names generalizing p with
  | nil => rw [makeFolders, List.append_nil]
  | cons n rest ih =>
    rw [List.mem_cons, not_or] at hnames
    rw [List.append_cons p n rest] at h ⊢
    rw [makeFolders, if_neg (Ne.symm hnames.1)]
    dsimp only
    rw [if_pos (at?_folder_iff.mp (at?_folder_of_append h))]
    exact ih hnames.2 h

/-- A file in a folder that is there is written unless a folder has its name. -/
theorem write_ofPlace (hfolder : t.at? folder = some .folder) (habove : Path.above ∉ folder)
    (hn : n ≠ Path.above) : t.write [] (.ofPlace (folder ++ [n])) bytes =
      if t.isFolder (folder ++ [n]) then (t, .error .isFolder)
      else (t.put (folder ++ [n]) bytes, .ok ()) := by
  have hmade : t.makeFolders false (start [] .root) folder = (t, .ok folder) :=
    makeFolders_of_at? (p := []) habove hfolder
  rw [write, Path.ofPlace]
  dsimp only
  rw [List.dropLast_concat, List.getLast?_concat, hmade]
  dsimp only
  rw [Option.toList_some, Place.follow_cons_of_ne hn]
  rfl

theorem mem_map_fst_putFile {files : List (Place × List UInt8)} {q : Place} :
    q ∈ (putFile p bytes files).map Prod.fst ↔ q = p ∨ q ∈ files.map Prod.fst := by
  induction files with
  | nil => simp [putFile]
  | cons f rest ih =>
    rw [putFile]
    split
    · rename_i hf
      simp [hf]
    · rw [List.map_cons, List.mem_cons, List.map_cons, List.mem_cons, ih]
      exact or_left_comm

/-- A file in a folder makes no folder. -/
theorem isFolder_put (hfolder : t.at? folder = some .folder) (p : Place) :
    (t.put (folder ++ [n]) bytes).isFolder p = t.isFolder p := by
  rw [Bool.eq_iff_iff]
  constructor
  · intro h
    obtain hp | hp | ⟨q, hq, hway, hne⟩ := isFolder_iff.mp h
    · exact isFolder_iff.mpr (.inl hp)
    · exact isFolder_iff.mpr (.inr (.inl hp))
    · obtain rfl | hq := mem_map_fst_putFile.mp hq
      · obtain ⟨rest, rfl⟩ := (List.prefix_concat_iff.mp hway).resolve_left hne
        exact at?_folder_iff.mp (at?_folder_of_append hfolder)
      · exact isFolder_iff.mpr (.inr (.inr ⟨q, hq, hway, hne⟩))
  · intro h
    refine isFolder_iff.mpr ((isFolder_iff.mp h).imp_right (Or.imp_right ?_))
    exact fun ⟨q, hq, hway⟩ => ⟨q, mem_map_fst_putFile.mpr (.inr hq), hway⟩

theorem at?_put (hfolder : t.at? folder = some .folder)
    (hn : t.isFolder (folder ++ [n]) = false) (p : Place) :
    (t.put (folder ++ [n]) bytes).at? p =
      if p = folder ++ [n] then some .file else t.at? p := by
  rw [at?, at?, isFolder_put hfolder, contents?_put]
  split_ifs <;> simp_all

/-- A file is read where it stands. -/
theorem read_ofPlace (hp : t.at? p = some .file)
    (hnames : ∀ n ∈ p, n ≠ Path.here ∧ n ≠ Path.above) :
    t.read [] (.ofPlace p) = .ok ((t.contents? p).getD []) := by
  have hreach : t.reach [] (.ofPlace p) = .ok (p, .file) := locate_of_at? (p := []) hnames hp
  rw [read, hreach]
  rfl

end FileTree

namespace Discovery.Extends

open FileTree

variable {k : FileKind} {base t : FileTree} {folder : Place} {n : Text} {bytes : List UInt8}

/-- A tree with a further file that is not sought still has what it had. -/
theorem put (h : Extends k base t) (hfolder : base.at? folder = some .folder)
    (hn : Unsought k n) (hnone : base.isFolder (folder ++ [n]) = false) :
    Extends k base (t.put (folder ++ [n]) bytes) := by
  have hname : nameAt (folder ++ [n]) = n := by simp [nameAt]
  have hnone' : t.isFolder (folder ++ [n]) = false := h.isFolder_eq.trans hnone
  constructor
  · intro p
    rw [at?_put (h.at?_of_some hfolder) hnone']
    split
    · rename_i hp
      obtain rfl := hp
      cases hat : base.at? (folder ++ [n]) with
      | none => exact .inr ⟨rfl, rfl, by rwa [hname]⟩
      | some s =>
        cases s with
        | file => exact .inl rfl
        | folder =>
          rw [at?_folder_iff, hnone] at hat
          cases hat
    · exact h.standing p
  · intro p hp
    have hne : p ≠ folder ++ [n] := by
      rintro rfl
      rw [hname, hn.not_admits] at hp
      cases hp
    rw [contents?_put, if_neg hne]
    exact h.contents p hp

end Discovery.Extends

end Localization
