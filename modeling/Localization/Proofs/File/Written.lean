import Localization.Proofs.File

/-! Files after a sequence of writes: every file has the contents that were written to it last, and
what was not written is as it was. -/

namespace Localization.FileTree

/-- `after` has the files of `before`, but for contents that were written one after the other. -/
def Written (ws : List (Place × List UInt8)) (before after : FileTree) : Prop :=
  ∀ q, after.contents? q = (ws.reverse.lookup q).or (before.contents? q)

namespace Written

variable {ws vs : List (Place × List UInt8)} {before middle after : FileTree}

theorem of_files (h : after.files = before.files) : Written [] before after :=
  contents?_congr h

theorem trans (h : Written ws before middle) (h' : Written vs middle after) :
    Written (ws ++ vs) before after := by
  intro q
  rw [h' q, h q, List.reverse_append, List.lookup_append, Option.or_assoc]

theorem of_put (t : FileTree) (p : Place) (bytes : List UInt8) :
    Written [(p, bytes)] t (t.put p bytes) := by
  intro q
  rw [contents?_put, List.reverse_singleton, List.lookup_cons]
  by_cases hq : q = p <;> simp [hq, beq_false_of_ne]

theorem of_write {p : Path} {bytes : List UInt8} (h : (before.write [] p bytes).2 = .ok ()) :
    Written [(target [] p, bytes)] before (before.write [] p bytes).1 := by
  intro q
  rw [write_ok h q, List.reverse_singleton, List.lookup_cons]
  by_cases hq : q = target [] p <;> simp [hq, beq_false_of_ne]

theorem mem_of_lookup {q : Place} {bytes : List UInt8} (h : ws.reverse.lookup q = some bytes) :
    (q, bytes) ∈ ws := by
  obtain ⟨l, r, hws, -⟩ := List.lookup_eq_some_iff.mp h
  exact List.mem_reverse.mp (hws ▸ by simp)

/-- Only what was written is changed. -/
theorem mem_of_changed (h : Written ws before after) {q : Place}
    (hq : after.contents? q ≠ before.contents? q) : ∃ w ∈ ws, w.1 = q := by
  rw [h q] at hq
  cases hlast : ws.reverse.lookup q with
  | none => simp [hlast] at hq
  | some bytes => exact ⟨_, mem_of_lookup hlast, rfl⟩

/-- There is a last write to a place that was written to. -/
theorem exists_lookup {w : Place × List UInt8} (hw : w ∈ ws) :
    ∃ bytes, ws.reverse.lookup w.1 = some bytes := by
  cases hlast : ws.reverse.lookup w.1 with
  | none =>
    have hne := List.lookup_eq_none_iff.mp hlast w (List.mem_reverse.mpr hw)
    simp at hne
  | some bytes => exact ⟨bytes, rfl⟩

/-- What was written is there, if only with what was written later. -/
theorem isSome_of_mem (h : Written ws before after) {w : Place × List UInt8} (hw : w ∈ ws) :
    (after.contents? w.1).isSome := by
  obtain ⟨bytes, hlast⟩ := exists_lookup hw
  rw [h w.1, hlast, Option.some_or, Option.isSome_some]

/-- No file is changed exactly if every file had before what was written to it last. -/
theorem unchanged_iff (h : Written ws before after) :
    (∀ q, after.contents? q = before.contents? q) ↔
      ∀ q bytes, ws.reverse.lookup q = some bytes → before.contents? q = some bytes := by
  constructor
  · intro hsame q bytes hlast
    rw [← hsame q, h q, hlast, Option.some_or]
  · intro hlast q
    rw [h q]
    cases hq : ws.reverse.lookup q with
    | none => rw [Option.none_or]
    | some bytes => rw [hlast q bytes hq, Option.some_or]

/-- Writing the same once more changes nothing. -/
theorem again (h : Written ws before middle) (h' : Written ws middle after) (q : Place) :
    after.contents? q = middle.contents? q := by
  rw [h' q]
  cases hlast : ws.reverse.lookup q with
  | none => rw [Option.none_or]
  | some bytes => rw [h q, hlast, Option.some_or, Option.some_or]

end Written

end Localization.FileTree
