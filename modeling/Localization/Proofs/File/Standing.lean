import Localization.File.Tree
import Localization.Proofs.Result
import Mathlib.Data.List.Basic

/-! What stands at the places of a tree. It tells what lies below a folder and where a way leads,
whatever the order in which files and folders are listed. -/

namespace Localization

namespace FileTree

variable {t : FileTree} {p q : Place} {s : Standing}

theorem mem_beginnings {α : Type} {as bs : List α} :
    bs ∈ beginnings as ↔ bs ≠ [] ∧ bs <+: as := by
  induction as generalizing bs with
  | nil => simp [beginnings]
  | cons a as ih =>
    cases bs with
    | nil => simp [beginnings]
    | cons b bs =>
      simp only [beginnings, List.mem_cons, List.cons.injEq, List.mem_map, ih,
        List.cons_prefix_cons]
      by_cases hbs : bs = []
      · simp [hbs, eq_comm]
      · simp [hbs, eq_comm, and_comm]

theorem isFolder_iff : t.isFolder p = true ↔ p = [] ∨ (∃ q ∈ t.folders, p <+: q) ∨
    ∃ q ∈ t.files.map Prod.fst, p <+: q ∧ p ≠ q := by
  simp [isFolder, or_assoc]

theorem contents?_isSome_iff : (t.contents? p).isSome ↔ p ∈ t.files.map Prod.fst := by
  rw [contents?, ← Bool.not_eq_false, Option.isSome_eq_false_iff, Option.isNone_iff_eq_none,
    List.lookup_eq_none_iff]
  simp

theorem at?_folder_iff : t.at? p = some .folder ↔ t.isFolder p = true := by
  rw [at?]
  split
  · simp [*]
  · split <;> simp [*]

theorem at?_isSome_iff : (t.at? p).isSome ↔ t.isFolder p = true ∨ (t.contents? p).isSome := by
  rw [at?]
  split
  · simp [*]
  · split <;> simp [*]

/-- Something stands at a place exactly if the place is on the way to a file or folder. -/
theorem exists_given_iff (hp : p ≠ []) : (∃ q ∈ t.given, p <+: q) ↔ (t.at? p).isSome := by
  rw [at?_isSome_iff, isFolder_iff, contents?_isSome_iff, given]
  simp only [hp, false_or, List.mem_append]
  constructor
  · rintro ⟨q, hq | hq, hpq⟩
    · by_cases heq : p = q
      · exact .inr (heq ▸ hq)
      · exact .inl (.inr ⟨q, hq, hpq, heq⟩)
    · exact .inl (.inl ⟨q, hq, hpq⟩)
  · rintro ((⟨q, hq, hpq⟩ | ⟨q, hq, hpq, -⟩) | hp)
    · exact ⟨q, .inr hq, hpq⟩
    · exact ⟨q, .inl hq, hpq⟩
    · exact ⟨p, .inl hp, List.prefix_rfl⟩

/-- What lies below a folder is what stands there. -/
theorem mem_below_iff {names : List Text} :
    names ∈ t.below p ↔ names ≠ [] ∧ (t.at? (p ++ names)).isSome := by
  simp only [below, List.mem_eraseDups, List.mem_flatMap, List.mem_filter, mem_beginnings,
    List.isPrefixOf_iff_prefix]
  constructor
  · rintro ⟨q, ⟨hq, rest, rfl⟩, hne, hnames⟩
    rw [List.drop_left] at hnames
    refine ⟨hne, (exists_given_iff (by simp [hne])).mp ⟨_, hq, ?_⟩⟩
    exact (List.prefix_append_right_inj p).mpr hnames
  · rintro ⟨hne, hsome⟩
    obtain ⟨q, hq, rest, rfl⟩ := (exists_given_iff (by simp [hne])).mpr hsome
    refine ⟨_, ⟨hq, names ++ rest, by simp⟩, hne, rest, ?_⟩
    rw [List.append_assoc, List.drop_left]

theorem mem_names_iff {n : Text} : n ∈ t.names p ↔ (t.at? (p ++ [n])).isSome := by
  simp only [names, List.mem_eraseDups, List.mem_filterMap, List.mem_filter,
    List.isPrefixOf_iff_prefix]
  rw [← exists_given_iff (by simp)]
  constructor
  · rintro ⟨q, ⟨hq, rest, rfl⟩, hn⟩
    rw [List.drop_left] at hn
    obtain ⟨tail, rfl⟩ := List.head?_eq_some_iff.mp hn
    exact ⟨_, hq, tail, by simp⟩
  · rintro ⟨q, hq, rest, rfl⟩
    exact ⟨_, ⟨hq, n :: rest, by simp⟩, by simp⟩

/-! ### Ways -/

/-- The place that a name leads to from a folder. -/
def step (p : Place) (n : Text) : Place :=
  if n = Path.here then p else if n = Path.above then p.dropLast else p ++ [n]

theorem step_of_ne {n : Text} (hhere : n ≠ Path.here) (habove : n ≠ Path.above) (p : Place) :
    step p n = p ++ [n] := by
  rw [step, if_neg hhere, if_neg habove]

theorem locate_nil_iff : t.locate p [] = .ok (q, s) ↔ p = q ∧ t.at? p = some s := by
  rw [locate]
  cases t.at? p <;> simp

theorem locate_cons_iff {n : Text} {rest : List Text} {r : Place × Standing} :
    t.locate p (n :: rest) = .ok r ↔
      t.at? p = some .folder ∧ t.locate (step p n) rest = .ok r := by
  rw [locate, step]
  cases t.at? p with
  | none => simp
  | some s =>
    cases s with
    | file => simp
    | folder => simp only [true_and]; split_ifs <;> rfl

theorem at?_of_locate {names : List Text} (h : t.locate p names = .ok (q, s)) :
    t.at? q = some s := by
  induction names generalizing p with
  | nil =>
    obtain ⟨rfl, hat⟩ := locate_nil_iff.mp h
    exact hat
  | cons n rest ih => exact ih (locate_cons_iff.mp h).2

/-- The first part of a way that leads somewhere leads somewhere. -/
theorem locate_append_iff {names more : List Text} {r : Place × Standing} :
    t.locate p (names ++ more) = .ok r ↔
      ∃ q s, t.locate p names = .ok (q, s) ∧ t.locate q more = .ok r := by
  induction names generalizing p with
  | nil =>
    obtain ⟨q, s⟩ := r
    simp only [List.nil_append, locate_nil_iff]
    constructor
    · intro h
      have hsome : ∃ s', t.at? p = some s' := by
        cases more with
        | nil => exact ⟨s, (locate_nil_iff.mp h).2⟩
        | cons n more => exact ⟨.folder, (locate_cons_iff.mp h).1⟩
      obtain ⟨s', hs'⟩ := hsome
      exact ⟨p, s', ⟨rfl, hs'⟩, h⟩
    · rintro ⟨_, -, ⟨rfl, -⟩, h⟩
      exact h
  | cons n rest ih =>
    simp only [List.cons_append, locate_cons_iff, ih]
    grind

/-- Names that stand for no other folder lead to the place that they make up. -/
theorem eq_append_of_locate {names : List Text}
    (hnames : ∀ n ∈ names, n ≠ Path.here ∧ n ≠ Path.above)
    (h : t.locate p names = .ok (q, s)) : q = p ++ names := by
  induction names generalizing p with
  | nil => rw [List.append_nil, (locate_nil_iff.mp h).1]
  | cons n rest ih =>
    obtain ⟨⟨hhere, habove⟩, hrest⟩ := List.forall_mem_cons.mp hnames
    have hlocate := (locate_cons_iff.mp h).2
    rw [step_of_ne hhere habove] at hlocate
    rw [ih hrest hlocate, List.append_assoc, List.singleton_append]

/-- Everything on the way to something is a folder. -/
theorem at?_of_append {names : List Text} (hnames : names ≠ [])
    (h : (t.at? (p ++ names)).isSome) : t.at? p = some .folder := by
  have hne : p ++ names ≠ [] := by simp [hnames]
  obtain ⟨q, hq, hprefix⟩ := (exists_given_iff hne).mpr h
  have hp : p <+: q := (List.prefix_append p names).trans hprefix
  rw [at?_folder_iff, isFolder_iff]
  rcases List.mem_append.mp hq with hfile | hfolder
  · refine .inr (.inr ⟨q, hfile, hp, ?_⟩)
    rintro rfl
    have hlength := hprefix.length_le
    rw [List.length_append] at hlength
    exact hnames (List.length_eq_zero_iff.mp (by omega))
  · exact .inr (.inl ⟨q, hfolder, hp⟩)

/-- A way of names that stand for no other folder leads to what stands at its end. -/
theorem locate_of_at? {names : List Text}
    (hnames : ∀ n ∈ names, n ≠ Path.here ∧ n ≠ Path.above)
    (h : t.at? (p ++ names) = some s) : t.locate p names = .ok (p ++ names, s) := by
  induction names generalizing p with
  | nil => exact locate_nil_iff.mpr ⟨(List.append_nil p).symm, by rwa [List.append_nil] at h⟩
  | cons n rest ih =>
    obtain ⟨⟨hhere, habove⟩, hrest⟩ := List.forall_mem_cons.mp hnames
    rw [locate_cons_iff, step_of_ne hhere habove]
    refine ⟨at?_of_append (List.cons_ne_nil n rest) (by rw [h]; rfl), ?_⟩
    rw [List.append_cons p n rest] at h ⊢
    exact ih hrest h

end FileTree

end Localization
