import Localization.File.Naming
import Localization.Proofs.File.Standing
import Mathlib.Data.List.Basic

/-! Files that are found have names of their kind, and so bundles that are found have names as
bundles. -/

namespace Localization

/-- The name that a way ends with is that of the place it leads to. -/
theorem FileTree.locate_concat {t : FileTree} {p q : Place} {names : List Text} {n : Text}
    {s : Standing} (hhere : n ≠ Path.here) (habove : n ≠ Path.above)
    (h : t.locate p (names ++ [n]) = .ok (q, s)) : q.getLast? = some n := by
  obtain ⟨folder, -, -, hlast⟩ := locate_append_iff.mp h
  have hend := (locate_cons_iff.mp hlast).2
  rw [step_of_ne hhere habove] at hend
  obtain ⟨rfl, -⟩ := locate_nil_iff.mp hend
  exact List.getLast?_concat

theorem FileKind.not_admits_above (k : FileKind) : k.admits Path.above = false := by
  cases k <;> decide

theorem FileKind.not_admits_nil (k : FileKind) : k.admits [] = false := by
  cases k <;> decide

namespace Discovery

theorem mem_find_iff {t : FileTree} {working : Place} {k : FileKind} {written : List Text}
    {p : Place} : p ∈ find t working k written ↔ ∃ w ∈ written, p ∈ named t working k w := by
  rw [find, List.mem_mergeSort, List.mem_eraseDups, List.mem_flatMap]

/-- What is found, if the places that paths name are in order once they are named once. -/
theorem find_eq {t : FileTree} {working : Place} {k : FileKind} {written : List Text}
    {ps : List Place} (hnamed : (written.flatMap (named t working k)).eraseDups = ps)
    (hsorted : ps.Pairwise fun p q => Place.le p q) : find t working k written = ps := by
  rw [find, hnamed]
  exact List.mergeSort_of_pairwise hsorted

/-- A path with a name of a kind leads to a file with that name. -/
theorem nameAt_of_reach {t : FileTree} {working place : Place} {k : FileKind} {w : Text}
    {s : Standing} (hadmits : k.admits (Path.ofText w).name = true)
    (h : t.reach working (.ofText w) = .ok (place, s)) : nameAt place = (Path.ofText w).name := by
  cases hlast : (Path.ofText w).names.getLast? with
  | none => simp [Path.name, hlast, k.not_admits_nil] at hadmits
  | some n =>
    have hname : (Path.ofText w).name = n := by rw [Path.name, hlast, Option.getD_some]
    have hhere : n ≠ Path.here := by
      have hmem := List.mem_of_getLast? hlast
      simp only [Path.ofText, List.mem_filter, decide_eq_true_eq, Bool.and_eq_true] at hmem
      exact hmem.2.2
    have habove : n ≠ Path.above := by
      rintro rfl
      rw [hname, k.not_admits_above] at hadmits
      cases hadmits
    have hnames := List.dropLast_append_getLast? n hlast
    rw [FileTree.reach, ← hnames] at h
    rw [nameAt, FileTree.locate_concat hhere habove h, Option.getD_some, hname]

theorem admits_of_mem_find {t : FileTree} {working : Place} {k : FileKind} {written : List Text}
    {p : Place} (h : p ∈ find t working k written) : k.admits (nameAt p) = true := by
  have hpattern : ∀ w, p ∈ byPattern t working k w → k.admits (nameAt p) = true := by
    intro w hw
    obtain ⟨⟨names, place⟩, -, hsome⟩ := List.mem_filterMap.mp hw
    obtain ⟨hadmits, hplace⟩ := Option.ite_none_right_eq_some.mp hsome
    obtain rfl := Option.some.inj hplace
    exact (Bool.and_eq_true_iff.mp hadmits).2
  obtain ⟨w, -, hw⟩ := mem_find_iff.mp h
  rw [named] at hw
  split at hw
  · rename_i place hreach
    split at hw
    · rename_i hadmits
      obtain rfl := List.mem_singleton.mp hw
      rwa [nameAt_of_reach hadmits hreach]
    · exact hpattern w hw
  · obtain ⟨names, -, hsome⟩ := List.mem_filterMap.mp hw
    obtain ⟨hadmits, hplace⟩ := Option.ite_none_right_eq_some.mp hsome
    obtain rfl := Option.some.inj hplace
    exact (Bool.and_eq_true_iff.mp hadmits).2
  · exact hpattern w hw

end Discovery

/-- A bundle that is found has a name. -/
theorem Naming.bundleName?_of_mem_find {t : FileTree} {working : Place} {written : List Text}
    {p : Place} (h : p ∈ Discovery.find t working .bundle written) :
    ∃ name, bundleName? (.ofPlace p) = some name := by
  have hadmits := Discovery.admits_of_mem_find h
  rw [FileKind.admits, Bool.or_eq_true, decide_eq_true_eq] at hadmits
  rw [bundleName?]
  split
  · exact ⟨_, rfl⟩
  · rename_i hname
    have hsuffix := hadmits.resolve_right hname
    exact ⟨_, if_pos hsuffix⟩

end Localization
