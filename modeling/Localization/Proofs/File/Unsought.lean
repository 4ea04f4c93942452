import Localization.Proofs.Fields
import Localization.Proofs.File.Found
import Localization.Proofs.Order
import Mathlib.Data.List.Perm.Basic

/-! Files that a search passes over. What is found depends on what stands at which places alone, and
a further file changes nothing if its name is not of the kind that is searched for: no way leads on
from it, and where a pattern comes to it, it is left out. -/

namespace Localization

namespace Place

theorem le_cons (a b : Text) (as bs : Place) :
    le (a :: as) (b :: bs) = if a = b then le as bs else Text.leByCodePoint a b :=
  rfl

theorem le_total (p q : Place) : (le p q || le q p) = true := by
  induction p generalizing q with
  | nil => rfl
  | cons a as ih =>
    cases q with
    | nil => rfl
    | cons b bs =>
      rw [le_cons, le_cons]
      by_cases hab : a = b
      · rw [if_pos hab, if_pos hab.symm]
        exact ih bs
      · rw [if_neg hab, if_neg (Ne.symm hab)]
        exact dictionaryLe_total _ _

theorem le_trans {p q r : Place} (hpq : le p q = true) (hqr : le q r = true) : le p r = true := by
  induction p generalizing q r with
  | nil => rfl
  | cons a as ih =>
    cases q with
    | nil => cases hpq
    | cons b bs =>
      cases r with
      | nil => cases hqr
      | cons c cs =>
        rw [le_cons] at hpq hqr ⊢
        by_cases hab : a = b
        · rw [if_pos hab] at hpq
          by_cases hbc : b = c
          · rw [if_pos hbc] at hqr
            rw [if_pos (hab.trans hbc)]
            exact ih hpq hqr
          · rw [if_neg hbc] at hqr
            rw [if_neg (hab ▸ hbc), hab]
            exact hqr
        · rw [if_neg hab] at hpq
          by_cases hbc : b = c
          · rw [if_neg (hbc ▸ hab), ← hbc]
            exact hpq
          · rw [if_neg hbc] at hqr
            have hac : a ≠ c := by
              rintro rfl
              exact hab (Text.leByCodePoint_antisymm hpq hqr)
            rw [if_neg hac]
            exact dictionaryLe_trans hpq hqr

theorem le_antisymm {p q : Place} (hpq : le p q = true) (hqp : le q p = true) : p = q := by
  induction p generalizing q with
  | nil =>
    cases q with
    | nil => rfl
    | cons b bs => cases hqp
  | cons a as ih =>
    cases q with
    | nil => cases hpq
    | cons b bs =>
      rw [le_cons] at hpq hqp
      by_cases hab : a = b
      · rw [if_pos hab] at hpq
        rw [if_pos hab.symm] at hqp
        rw [hab, ih hpq hqp]
      · rw [if_neg hab] at hpq
        rw [if_neg (Ne.symm hab)] at hqp
        exact absurd (Text.leByCodePoint_antisymm hpq hqp) hab

/-- The order of places leaves nothing open. -/
theorem mergeSort_eq_of_perm {ps qs : List Place} (h : ps.Perm qs) :
    ps.mergeSort le = qs.mergeSort le := by
  have hsorted (rs : List Place) : (rs.mergeSort le).Pairwise fun p q => le p q = true :=
    List.pairwise_mergeSort (fun p q r => @le_trans p q r) le_total rs
  have hperm := ((List.mergeSort_perm ps le).trans h).trans (List.mergeSort_perm qs le).symm
  exact hperm.eq_of_pairwise (fun _ _ _ _ => le_antisymm) (hsorted ps) (hsorted qs)

end Place

namespace Pattern

variable {t : FileTree} {p start : Place} {names above : List Text}

theorem prefix_of_mem_expandFrom {segments : List Segment}
    (h : names ∈ expandFrom t start above segments) : above <+: names := by
  induction segments generalizing above with
  | nil =>
    rw [expandFrom, List.mem_singleton] at h
    exact h ▸ List.prefix_rfl
  | cons segment rest ih =>
    rw [expandFrom, List.mem_flatMap] at h
    obtain ⟨more, -, hmore⟩ := h
    exact (List.prefix_append above more).trans (ih hmore)

theorem mem_filesOf_iff {pattern : Pattern} {working : Place} :
    (names, p) ∈ pattern.filesOf t working ↔ pattern.forFolders = false ∧
      names ∈ expandFrom t (FileTree.start working pattern.anchor) [] pattern.segments ∧
      t.locate (FileTree.start working pattern.anchor) names = .ok (p, .file) := by
  rw [filesOf]
  cases pattern.forFolders with
  | true => simp
  | false =>
    rw [if_neg Bool.false_ne_true, List.mem_filterMap]
    constructor
    · rintro ⟨names, hnames, hsome⟩
      split at hsome
      · rename_i hlocate
        cases hsome
        exact ⟨rfl, hnames, hlocate⟩
      · cases hsome
    · rintro ⟨-, hnames, hlocate⟩
      exact ⟨names, hnames, by rw [hlocate]⟩

end Pattern

/-- A name that does not begin with a dot stands for no other folder. -/
theorem Segment.ne_of_not_hidden {n : Text} (h : ¬ isHidden n = true) :
    n ≠ Path.here ∧ n ≠ Path.above := by
  constructor
  · rintro rfl
    exact h (by decide)
  · rintro rfl
    exact h (by decide)

namespace Discovery

open FileTree (locate_nil_iff locate_cons_iff locate_append_iff)

section Members

variable {t : FileTree} {k : FileKind} {p working folder : Place} {written : Text}

theorem mem_byPattern_iff : p ∈ byPattern t working k written ↔
    ∃ names, (names, p) ∈ (Pattern.ofText written).filesOf t working ∧
      dependencies ∉ names ∧ k.admits (nameAt p) = true := by
  simp only [byPattern, List.mem_filterMap, Prod.exists, Option.ite_none_right_eq_some,
    Option.some.injEq, Bool.and_eq_true, Bool.not_eq_true', List.contains_eq_mem,
    decide_eq_false_iff_not]
  grind

theorem mem_inFolder_iff : p ∈ inFolder t k folder ↔ k.admits (nameAt p) = true ∧
    t.at? p = some .file ∧ ∃ names, names ≠ [] ∧ dependencies ∉ names ∧ p = folder ++ names := by
  simp only [inFolder, List.mem_filterMap, FileTree.mem_below_iff, Option.ite_none_right_eq_some,
    Option.some.injEq, Bool.and_eq_true, Bool.not_eq_true', List.contains_eq_mem,
    decide_eq_false_iff_not, decide_eq_true_eq]
  grind

/-- Searches that find the same files find them in the same order. -/
theorem find_eq_of_mem_iff {t' : FileTree} {working' : Place} {paths paths' : List Text}
    (h : ∀ p, p ∈ find t working k paths ↔ p ∈ find t' working' k paths') :
    find t working k paths = find t' working' k paths' := by
  rw [find, find]
  apply Place.mergeSort_eq_of_perm
  rw [List.perm_ext_iff_of_nodup (nodup_eraseDups _) (nodup_eraseDups _)]
  intro p
  simpa only [find, List.mem_mergeSort] using h p

/-- What is found is a file. -/
theorem at?_of_mem_find {paths : List Text} (h : p ∈ find t working k paths) :
    t.at? p = some .file := by
  have hpattern (w : Text) (hw : p ∈ byPattern t working k w) : t.at? p = some .file := by
    obtain ⟨names, hnames, -⟩ := mem_byPattern_iff.mp hw
    exact FileTree.at?_of_locate (Pattern.mem_filesOf_iff.mp hnames).2.2
  obtain ⟨w, -, hw⟩ := mem_find_iff.mp h
  rw [named] at hw
  split at hw
  · rename_i hreach
    split at hw
    · obtain rfl := List.mem_singleton.mp hw
      exact FileTree.at?_of_locate hreach
    · exact hpattern w hw
  · exact (mem_inFolder_iff.mp hw).2.1
  · exact hpattern w hw

end Members

/-- A name that no search for files of a kind takes, and no way mistakes for another folder. -/
structure Unsought (k : FileKind) (n : Text) : Prop where
  not_admits : k.admits n = false
  ne_here : n ≠ Path.here
  ne_above : n ≠ Path.above

/-- `after` has what `before` has, and files besides whose names are not sought. Files whose names
are sought have the contents that they had. -/
structure Extends (k : FileKind) (before after : FileTree) : Prop where
  standing (p : Place) : after.at? p = before.at? p ∨
    before.at? p = none ∧ after.at? p = some .file ∧ Unsought k (nameAt p)
  contents (p : Place) (h : k.admits (nameAt p) = true) : after.contents? p = before.contents? p

namespace Extends

variable {k : FileKind} {before after : FileTree} {p q : Place} {names : List Text} {s : Standing}

theorem refl (k : FileKind) (t : FileTree) : Extends k t t := ⟨fun _ => .inl rfl, fun _ _ => rfl⟩

theorem at?_of_some (h : Extends k before after) (hp : before.at? p = some s) :
    after.at? p = some s := by
  obtain hsame | ⟨hnone, -⟩ := h.standing p
  · rw [hsame, hp]
  · rw [hnone] at hp
    cases hp

theorem at?_of_admits (h : Extends k before after) (hp : k.admits (nameAt p) = true) :
    after.at? p = before.at? p := by
  obtain hsame | ⟨-, -, hunsought⟩ := h.standing p
  · exact hsame
  · rw [hunsought.not_admits] at hp
    cases hp

theorem folder_iff (h : Extends k before after) :
    after.at? p = some .folder ↔ before.at? p = some .folder := by
  obtain hsame | ⟨hnone, hfile, -⟩ := h.standing p
  · rw [hsame]
  · simp [hnone, hfile]

theorem isFolder_eq (h : Extends k before after) : after.isFolder p = before.isFolder p := by
  rw [Bool.eq_iff_iff, ← FileTree.at?_folder_iff, ← FileTree.at?_folder_iff]
  exact h.folder_iff

/-- A way leads where it led. -/
theorem locate_of_ok (h : Extends k before after) {r : Place × Standing}
    (hr : before.locate p names = .ok r) : after.locate p names = .ok r := by
  induction names generalizing p with
  | nil =>
    obtain ⟨q, s⟩ := r
    obtain ⟨rfl, hat⟩ := locate_nil_iff.mp hr
    exact locate_nil_iff.mpr ⟨rfl, h.at?_of_some hat⟩
  | cons n rest ih =>
    obtain ⟨hfolder, hrest⟩ := locate_cons_iff.mp hr
    exact locate_cons_iff.mpr ⟨h.folder_iff.mpr hfolder, ih hrest⟩

/-- A way that led nowhere can lead to a further file, and no way leads on from there. -/
theorem locate_cases (h : Extends k before after) (hr : after.locate p names = .ok (q, s)) :
    before.locate p names = .ok (q, s) ∨
      before.at? q = none ∧ s = .file ∧ Unsought k (nameAt q) := by
  induction names generalizing p with
  | nil =>
    obtain ⟨rfl, hat⟩ := locate_nil_iff.mp hr
    obtain hsame | ⟨hnone, hfile, hunsought⟩ := h.standing p
    · exact .inl (locate_nil_iff.mpr ⟨rfl, hsame ▸ hat⟩)
    · exact .inr ⟨hnone, Option.some.inj (hat.symm.trans hfile), hunsought⟩
  | cons n rest ih =>
    obtain ⟨hfolder, hrest⟩ := locate_cons_iff.mp hr
    exact (ih hrest).imp (fun hlocate => locate_cons_iff.mpr ⟨h.folder_iff.mp hfolder, hlocate⟩) id

/-- A further file stands at no place whose names led somewhere. -/
theorem isSome_iff_of_locate (h : Extends k before after)
    (hnames : ∀ n ∈ names.dropLast, n ≠ Path.here ∧ n ≠ Path.above)
    (hr : before.locate p names = .ok (q, s)) :
    (after.at? (p ++ names)).isSome ↔ (before.at? (p ++ names)).isSome := by
  obtain hsame | ⟨hnone, -, hunsought⟩ := h.standing (p ++ names)
  · rw [hsame]
  have hplain : ∀ n ∈ names, n ≠ Path.here ∧ n ≠ Path.above := by
    rcases List.eq_nil_or_concat names with rfl | ⟨init, last, rfl⟩
    · simp
    · rw [List.concat_eq_append] at hnames hunsought ⊢
      rw [List.dropLast_concat] at hnames
      have hname : nameAt (p ++ (init ++ [last])) = last := by simp [nameAt]
      rw [hname] at hunsought
      simpa [or_imp, forall_and, hunsought.ne_here, hunsought.ne_above] using hnames
  rw [← FileTree.eq_append_of_locate hplain hr, FileTree.at?_of_locate hr] at hnone
  cases hnone

/-! ### Patterns -/

section Patterns

variable {start : Place} {above : List Text}

/-- A segment stands for the same names, of those that led somewhere. -/
theorem mem_expand_iff (h : Extends k before after) {segment : Segment}
    (hr : before.locate start (above ++ names) = .ok (q, s)) :
    names ∈ segment.expand after start above ↔ names ∈ segment.expand before start above := by
  obtain ⟨place, standing, habove, hnames⟩ := locate_append_iff.mp hr
  have habove' := h.locate_of_ok habove
  cases segment with
  | name n =>
    simp only [Segment.expand]
    have hok (hname : names = [n]) : (after.locate start (above ++ [n])).isOk = true ∧
        (before.locate start (above ++ [n])).isOk = true := by
      rw [← hname, h.locate_of_ok hr, hr]
      exact ⟨rfl, rfl⟩
    by_cases hname : names = [n]
    · rw [if_pos (hok hname).1, if_pos (hok hname).2]
    · split <;> split <;> simp [hname]
  | form ws hidden =>
    simp only [Segment.expand, habove, habove']
    cases standing with
    | file => rfl
    | folder =>
      simp only [List.mem_map, List.mem_filter]
      refine exists_congr fun n => and_congr_left fun hname => and_congr_left fun _ => ?_
      obtain rfl := hname
      rw [FileTree.mem_names_iff, FileTree.mem_names_iff]
      exact h.isSome_iff_of_locate (by simp) hnames
  | folders =>
    simp only [Segment.expand, habove, habove']
    cases standing with
    | file => rfl
    | folder =>
      simp only [List.mem_cons, List.mem_filter, FileTree.mem_below_iff]
      refine or_congr_right (and_congr_left fun hhidden => and_congr_right fun _ => ?_)
      refine h.isSome_iff_of_locate (fun n hn => ?_) hnames
      rw [Bool.not_eq_true', List.any_eq_false] at hhidden
      exact Segment.ne_of_not_hidden (hhidden n (List.dropLast_subset names hn))

/-- Segments stand for the same names, of those that led somewhere. -/
theorem mem_expandFrom_iff (h : Extends k before after) {segments : List Segment}
    (hr : before.locate start names = .ok (q, s)) :
    names ∈ Pattern.expandFrom after start above segments ↔
      names ∈ Pattern.expandFrom before start above segments := by
  induction segments generalizing above with
  | nil => rfl
  | cons segment rest ih =>
    simp only [Pattern.expandFrom, List.mem_flatMap, ih]
    refine exists_congr fun more => and_congr_left fun hmore => ?_
    obtain ⟨last, rfl⟩ := Pattern.prefix_of_mem_expandFrom hmore
    obtain ⟨_, _, hlocate, -⟩ := locate_append_iff.mp hr
    exact h.mem_expand_iff hlocate

theorem mem_filesOf_iff (h : Extends k before after) (hp : k.admits (nameAt p) = true)
    {pattern : Pattern} {working : Place} :
    (names, p) ∈ pattern.filesOf after working ↔ (names, p) ∈ pattern.filesOf before working := by
  rw [Pattern.mem_filesOf_iff, Pattern.mem_filesOf_iff]
  constructor
  · rintro ⟨hfiles, hnames, hlocate⟩
    obtain hbefore | ⟨-, -, hunsought⟩ := h.locate_cases hlocate
    · exact ⟨hfiles, (h.mem_expandFrom_iff hbefore).mp hnames, hbefore⟩
    · rw [hunsought.not_admits] at hp
      cases hp
  · rintro ⟨hfiles, hnames, hlocate⟩
    exact ⟨hfiles, (h.mem_expandFrom_iff hlocate).mpr hnames, h.locate_of_ok hlocate⟩

end Patterns

/-! ### Searches -/

variable {working folder : Place} {written : Text}

theorem mem_byPattern_iff (h : Extends k before after) :
    p ∈ byPattern after working k written ↔ p ∈ byPattern before working k written := by
  rw [Discovery.mem_byPattern_iff, Discovery.mem_byPattern_iff]
  exact exists_congr fun names => and_congr_left fun ⟨_, hadmits⟩ => h.mem_filesOf_iff hadmits

theorem mem_inFolder_iff (h : Extends k before after) :
    p ∈ inFolder after k folder ↔ p ∈ inFolder before k folder := by
  rw [Discovery.mem_inFolder_iff, Discovery.mem_inFolder_iff]
  refine and_congr_right fun hadmits => and_congr_left fun _ => ?_
  rw [h.at?_of_admits hadmits]

theorem mem_named_iff (h : Extends k before after) :
    p ∈ named after working k written ↔ p ∈ named before working k written := by
  rw [named, named]
  cases hbefore : before.reach working (.ofText written) with
  | ok r =>
    have hafter : after.reach working (.ofText written) = .ok r := h.locate_of_ok hbefore
    obtain ⟨q, s⟩ := r
    simp only [hafter]
    cases s with
    | file =>
      dsimp only
      split
      · rfl
      · exact h.mem_byPattern_iff
    | folder => exact h.mem_inFolder_iff
  | error e =>
    cases hafter : after.reach working (.ofText written) with
    | error e => exact h.mem_byPattern_iff
    | ok r =>
      obtain ⟨q, s⟩ := r
      obtain hlocate | ⟨-, rfl, hunsought⟩ := h.locate_cases hafter
      · cases hbefore.symm.trans hlocate
      · dsimp only
        split
        · rename_i hadmits
          rw [← nameAt_of_reach hadmits hafter, hunsought.not_admits] at hadmits
          cases hadmits
        · exact h.mem_byPattern_iff

/-- A search finds what it found. -/
theorem find_eq (h : Extends k before after) (working : Place) (written : List Text) :
    find after working k written = find before working k written :=
  find_eq_of_mem_iff fun p => by simp only [mem_find_iff, h.mem_named_iff]

end Extends

end Discovery

end Localization
