import Localization.Text.Replace
import Mathlib.Data.List.TakeDrop
import Mathlib.Data.List.TakeWhile

/-! Runs: the longest beginning of a list in which everything has a property. -/

namespace Localization

variable {α : Type} {p : α → Bool} {run rest : List α}

/-- A run ends before the first item without the property. -/
theorem takeWhile_run (hrun : ∀ a ∈ run, p a) (hrest : ∀ a ∈ rest.head?, p a = false) :
    (run ++ rest).takeWhile p = run := by
  rw [List.takeWhile_append_of_pos hrun]
  cases rest with
  | nil => simp
  | cons a rest => simp [hrest a (by simp)]

theorem dropWhile_run (hrun : ∀ a ∈ run, p a) (hrest : ∀ a ∈ rest.head?, p a = false) :
    (run ++ rest).dropWhile p = rest := by
  rw [List.dropWhile_append_of_pos hrun]
  cases rest with
  | nil => rfl
  | cons a rest => simp [hrest a (by simp)]

theorem span_run (hrun : ∀ a ∈ run, p a) (hrest : ∀ a ∈ rest.head?, p a = false) :
    (run ++ rest).span p = (run, rest) := by
  rw [List.span_eq_takeWhile_dropWhile, takeWhile_run hrun hrest, dropWhile_run hrun hrest]

/-- Every list is a run and a rest that does not continue it. -/
theorem exists_run (p : α → Bool) (l : List α) :
    ∃ run rest, l = run ++ rest ∧ (∀ a ∈ run, p a) ∧ ∀ a ∈ rest.head?, p a = false := by
  refine ⟨l.takeWhile p, l.dropWhile p, List.takeWhile_append_dropWhile.symm,
    fun a ha => List.mem_takeWhile_imp ha, fun a ha => ?_⟩
  have h := List.head?_dropWhile_not p l
  rw [Option.mem_def.mp ha] at h
  simpa using h

/-- The length of a run that is not empty and that `close` ends, with `k` more. -/
theorem closedLength_eq_some_iff [DecidableEq α] {close : α} (hclose : p close = false)
    {l : List α} {k n : Nat} :
    (if (l.takeWhile p).length = 0 || (l.drop (l.takeWhile p).length).head? ≠ some close then none
      else some ((l.takeWhile p).length + k)) = some n ↔
      ∃ run rest, l = run ++ close :: rest ∧ run ≠ [] ∧ (∀ a ∈ run, p a = true) ∧
        n = run.length + k := by
  constructor
  · intro h
    obtain ⟨run, rest, rfl, hrun, hrest⟩ := exists_run p l
    rw [takeWhile_run hrun hrest, List.drop_left] at h
    split at h
    · cases h
    · rename_i hn
      simp only [Bool.or_eq_true, decide_eq_true_eq, not_or, not_not, List.length_eq_zero_iff,
        List.head?_eq_some_iff] at hn
      obtain ⟨hne, rest, rfl⟩ := hn
      exact ⟨run, rest, rfl, hne, hrun, (Option.some.inj h).symm⟩
  · rintro ⟨run, rest, rfl, hne, hrun, rfl⟩
    have hends : ∀ a ∈ (close :: rest).head?, p a = false := by simpa using hclose
    rw [takeWhile_run hrun hends, List.drop_left]
    simp [hne]

/-- What follows a beginning is what stands after it. -/
theorem stripPrefix?_eq_some_iff [BEq α] [LawfulBEq α] {pattern xs rest : List α} :
    stripPrefix? pattern xs = some rest ↔ xs = pattern ++ rest := by
  induction pattern generalizing xs with
  | nil => simp [stripPrefix?]
  | cons q pattern ih =>
    cases xs with
    | nil => simp [stripPrefix?]
    | cons x xs =>
      by_cases hq : q = x
      · simp [stripPrefix?, hq, ih]
      · simp [stripPrefix?, hq, Ne.symm hq]

end Localization
