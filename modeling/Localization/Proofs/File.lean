import Localization.File.Tree
import Mathlib.Data.List.Basic

/-! What writing does to a tree: contents are put at the place that the path leads to, or the files
stay as they are. Making folders changes no file. -/

namespace Localization.FileTree

variable {t : FileTree} {working : Place} {p : Path} {bytes : List UInt8}

/-- The place that a path leads to from a working folder, whatever files there are. -/
def target (working : Place) (p : Path) : Place := Place.follow (start working p.anchor) p.names

theorem lookup_putFile (p q : Place) (bytes : List UInt8) (files : List (Place × List UInt8)) :
    (putFile p bytes files).lookup q = if q = p then some bytes else files.lookup q := by
  induction files with
  | nil => by_cases h : q = p <;> simp [putFile, List.lookup_cons, h, beq_false_of_ne]
  | cons f rest ih =>
    obtain ⟨r, b⟩ := f
    rw [putFile]
    by_cases hr : r = p
    · subst hr
      rw [if_pos rfl]
      by_cases h : q = r <;> simp [List.lookup_cons, h, beq_false_of_ne]
    · rw [if_neg hr]
      by_cases h : q = r
      · simp [h, hr]
      · simp [List.lookup_cons, beq_false_of_ne h, ih]

theorem contents?_put (t : FileTree) (p q : Place) (bytes : List UInt8) :
    (t.put p bytes).contents? q = if q = p then some bytes else t.contents? q :=
  lookup_putFile p q bytes t.files

theorem contents?_congr {t t' : FileTree} (h : t'.files = t.files) (q : Place) :
    t'.contents? q = t.contents? q := by
  rw [contents?, contents?, h]

theorem files_makeFolders (t : FileTree) (made : Bool) (p : Place) (names : List Text) :
    (t.makeFolders made p names).1.files = t.files := by
  induction names generalizing t made p with
  | nil => rfl
  | cons n rest ih =>
    rw [makeFolders]
    split
    · exact ih t made p.dropLast
    · dsimp only
      split
      · exact ih t made (p ++ [n])
      · split
        · rfl
        · exact ih _ true (p ++ [n])

/-- Folders are made as far as the names lead. -/
theorem makeFolders_ok {made : Bool} {place q : Place} {names : List Text}
    (h : (t.makeFolders made place names).2 = .ok q) : q = place.follow names := by
  induction names generalizing t made place with
  | nil => exact (Except.ok.inj h).symm
  | cons n rest ih =>
    rw [makeFolders] at h
    rw [Place.follow, List.foldl_cons, ← Place.follow]
    split at h
    · rename_i habove
      rw [if_pos habove]
      exact ih h
    · rename_i habove
      rw [if_neg habove]
      dsimp only at h
      split at h
      · exact ih h
      · split at h
        · cases h
        · exact ih h

theorem follow_dropLast (place : Place) (names : List Text) :
    (place.follow names.dropLast).follow names.getLast?.toList = place.follow names := by
  have hall : names.dropLast ++ names.getLast?.toList = names := by
    cases h : names.getLast? with
    | none => simp [List.getLast?_eq_none_iff.mp h]
    | some n => exact List.dropLast_append_getLast? n h
  rw [Place.follow, Place.follow, Place.follow, ← List.foldl_append, hall]

theorem write_error {fault : FileFault} (h : (t.write working p bytes).2 = .error fault) :
    (t.write working p bytes).1.files = t.files := by
  have hmade := files_makeFolders t false (start working p.anchor) p.names.dropLast
  unfold write at h ⊢
  split at h
  · rename_i heq
    rw [heq] at hmade
    exact hmade
  · rename_i heq
    rw [heq] at hmade
    dsimp only at h ⊢
    split at h
    · rename_i hfolder
      rw [if_pos hfolder]
      exact hmade
    · cases h

/-- Contents that are written stand at the place that the path leads to, and nothing else is
changed. -/
theorem write_ok (h : (t.write working p bytes).2 = .ok ()) (q : Place) :
    (t.write working p bytes).1.contents? q =
      if q = target working p then some bytes else t.contents? q := by
  have hmade := files_makeFolders t false (start working p.anchor) p.names.dropLast
  unfold write at h ⊢
  split at h
  · cases h
  · rename_i made folder heq
    have hfolder : folder = (start working p.anchor).follow p.names.dropLast :=
      makeFolders_ok (congrArg Prod.snd heq)
    rw [heq] at hmade
    dsimp only at h ⊢
    split at h
    · cases h
    · rename_i hnone
      rw [if_neg hnone, contents?_put, contents?_congr hmade, hfolder, follow_dropLast, target]

end Localization.FileTree
