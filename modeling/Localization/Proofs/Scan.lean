import Mathlib.Data.List.Basic

/-! Scans from left to right: where a match begins it is taken whole, and any other item is passed
over. So the matches that are taken do not overlap, and every match begins in one of them. -/

namespace Localization

variable {α : Type}

/-- A step of a scan: over one item, or over a match. -/
inductive ScanStep (α : Type) where
  | item (x : α)
  | found (xs : List α)

def ScanStep.source : ScanStep α → List α
  | .item x => [x]
  | .found xs => xs

/-- The items that steps go over. -/
def ScanStep.sources (steps : List (ScanStep α)) : List α := steps.flatMap source

/-- The steps of a scan of a list, where `Begins` gives the length of a match with which a list
begins. -/
inductive Scan (Begins : List α → Nat → Prop) : List α → List (ScanStep α) → Prop
  | nil : Scan Begins [] []
  | item {x : α} {rest : List α} {steps : List (ScanStep α)} (none : ∀ n, ¬ Begins (x :: rest) n)
    (more : Scan Begins rest steps) : Scan Begins (x :: rest) (.item x :: steps)
  | found {xs rest : List α} {steps : List (ScanStep α)} (begins : Begins (xs ++ rest) xs.length)
    (more : Scan Begins rest steps) : Scan Begins (xs ++ rest) (.found xs :: steps)

/-- The scan of a list takes a match behind others items. -/
def Takes (Begins : List α → Nat → Prop) (xs before found : List α) : Prop :=
  ∃ steps more, Scan Begins xs (steps ++ .found found :: more) ∧ before = ScanStep.sources steps

/-- What is asked of matches: none is empty, and a list begins with one at most. -/
structure Matching (Begins : List α → Nat → Prop) : Prop where
  pos : ∀ {xs : List α} {n : Nat}, Begins xs n → 0 < n
  le_length : ∀ {xs : List α} {n : Nat}, Begins xs n → n ≤ xs.length
  unique : ∀ {xs : List α} {m n : Nat}, Begins xs m → Begins xs n → m = n

variable {Begins : List α → Nat → Prop} {xs : List α} {steps : List (ScanStep α)}

@[simp] theorem ScanStep.sources_nil : sources ([] : List (ScanStep α)) = [] := rfl

@[simp] theorem ScanStep.sources_cons (s : ScanStep α) (steps : List (ScanStep α)) :
    sources (s :: steps) = s.source ++ sources steps := List.flatMap_cons

@[simp] theorem ScanStep.sources_append (steps more : List (ScanStep α)) :
    sources (steps ++ more) = sources steps ++ sources more := List.flatMap_append

/-- The steps of a scan go over the list. -/
theorem Scan.sources (h : Scan Begins xs steps) : ScanStep.sources steps = xs := by
  induction h with
  | nil => rfl
  | item _ _ ih => rw [ScanStep.sources_cons, ih]; rfl
  | found _ _ ih => rw [ScanStep.sources_cons, ih]; rfl

/-- What is left of a scan is the scan of what is left. -/
theorem Scan.drop (before : List (ScanStep α)) {after : List (ScanStep α)}
    (h : Scan Begins xs (before ++ after)) : Scan Begins (ScanStep.sources after) after := by
  induction before generalizing xs with
  | nil =>
    rw [List.nil_append] at h
    rwa [h.sources]
  | cons s before ih =>
    cases h with
    | item _ more => exact ih more
    | found _ more => exact ih more

theorem Takes.split {before found : List α} (h : Takes Begins xs before found) :
    ∃ after, xs = before ++ found ++ after ∧ Begins (found ++ after) found.length := by
  obtain ⟨steps, more, hscan, rfl⟩ := h
  refine ⟨ScanStep.sources more, ?_, ?_⟩
  · rw [← hscan.sources, ScanStep.sources_append, ScanStep.sources_cons, ← List.append_assoc]
    rfl
  · have hdrop := hscan.drop steps
    generalize hsources : ScanStep.sources (.found found :: more) = rest at hdrop
    cases hdrop with
    | found begins hmore => rwa [hmore.sources]

/-- What is taken on both sides of a place ends behind it. -/
theorem Takes.cut {before after b found : List α} (h : Takes Begins (before ++ after) b found)
    (hle : b.length ≤ before.length) (hlt : before.length < b.length + found.length) :
    ∃ front back rest, before = b ++ front ∧ found = front ++ back ∧ back ≠ [] ∧
      after = back ++ rest ∧ Begins (found ++ rest) found.length := by
  obtain ⟨rest, hsplit, hbegins⟩ := h.split
  have hb : b <+: before ++ after := by
    rw [hsplit, List.append_assoc]
    exact List.prefix_append b _
  obtain ⟨front, rfl⟩ := List.prefix_of_prefix_length_le hb (List.prefix_append before after) hle
  rw [List.append_assoc, List.append_assoc, List.append_cancel_left_eq] at hsplit
  rw [List.length_append] at hlt
  have hfront : front <+: found ++ rest := by
    rw [← hsplit]
    exact List.prefix_append front after
  obtain ⟨back, rfl⟩ :=
    List.prefix_of_prefix_length_le hfront (List.prefix_append found rest) (by omega)
  rw [List.append_assoc, List.append_cancel_left_eq] at hsplit
  refine ⟨front, back, rest, rfl, rfl, ?_, hsplit, hbegins⟩
  rintro rfl
  rw [List.append_nil] at hlt
  omega

namespace Matching

theorem not_nil (hm : Matching Begins) (n : Nat) : ¬ Begins [] n := by
  intro h
  have hpos := hm.pos h
  have hle := hm.le_length h
  rw [List.length_nil] at hle
  omega

/-- Every list has a scan. -/
theorem exists_scan (hm : Matching Begins) (xs : List α) : ∃ steps, Scan Begins xs steps := by
  induction hk : xs.length using Nat.strongRecOn generalizing xs with
  | _ k ih =>
  subst hk
  cases xs with
  | nil => exact ⟨[], .nil⟩
  | cons x xs =>
    by_cases h : ∃ n, Begins (x :: xs) n
    · obtain ⟨n, hn⟩ := h
      have hpos := hm.pos hn
      have hle := hm.le_length hn
      have hlength : ((x :: xs).take n).length = n := by rw [List.length_take]; omega
      have hrest : ((x :: xs).drop n).length < (x :: xs).length := by
        rw [List.length_drop]; omega
      obtain ⟨steps, hsteps⟩ := ih _ hrest _ rfl
      refine ⟨.found ((x :: xs).take n) :: steps, ?_⟩
      have hscan : Scan Begins ((x :: xs).take n ++ (x :: xs).drop n)
          (.found ((x :: xs).take n) :: steps) :=
        .found (by rwa [List.take_append_drop, hlength]) hsteps
      rwa [List.take_append_drop] at hscan
    · rw [not_exists] at h
      obtain ⟨steps, hsteps⟩ := ih _ (by simp) xs rfl
      exact ⟨_, .item h hsteps⟩

/-- A list has one scan only. -/
theorem scan_unique (hm : Matching Begins) {steps' : List (ScanStep α)}
    (h : Scan Begins xs steps) (h' : Scan Begins xs steps') : steps = steps' := by
  induction h generalizing steps' with
  | nil =>
    generalize hxs : ([] : List α) = xs at h'
    cases h' with
    | nil => rfl
    | item => cases hxs
    | found begins => exact absurd (hxs ▸ begins) (hm.not_nil _)
  | @item x rest steps none _ ih =>
    generalize hxs : x :: rest = xs at h'
    cases h' with
    | nil => cases hxs
    | item _ more =>
      obtain ⟨rfl, rfl⟩ := List.cons.inj hxs
      rw [ih more]
    | found begins => exact absurd (hxs ▸ begins) (none _)
  | @found found rest steps begins _ ih =>
    generalize hxs : found ++ rest = xs at h'
    cases h' with
    | nil => exact absurd (hxs ▸ begins) (hm.not_nil _)
    | item none => exact absurd (hxs ▸ begins) (none _)
    | found begins' more =>
      have hlength := hm.unique begins (hxs ▸ begins')
      obtain ⟨rfl, rfl⟩ := List.append_inj hxs hlength
      rw [ih more]

/-- Where a match begins, one that is taken begins or goes on. -/
theorem exists_found (hm : Matching Begins) (h : Scan Begins xs steps) {before after : List α}
    {n : Nat} (hxs : xs = before ++ after) (hn : Begins after n) :
    ∃ past found more, steps = past ++ .found found :: more ∧
      (ScanStep.sources past).length ≤ before.length ∧
      before.length < (ScanStep.sources past).length + found.length := by
  induction h generalizing before with
  | nil =>
    obtain ⟨rfl, rfl⟩ := List.append_eq_nil_iff.mp hxs.symm
    exact absurd hn (hm.not_nil n)
  | @item x rest steps none _ ih =>
    cases before with
    | nil => exact absurd (hxs ▸ hn) (none n)
    | cons y before =>
      obtain ⟨-, hrest⟩ := List.cons.inj hxs
      obtain ⟨past, found, more, rfl, hle, hlt⟩ := ih hrest
      refine ⟨.item x :: past, found, more, rfl, ?_, ?_⟩ <;>
        simp only [ScanStep.sources_cons, ScanStep.source, List.length_append, List.length_cons,
          List.length_nil] <;> omega
  | @found first rest steps begins _ ih =>
    by_cases hlength : before.length < first.length
    · exact ⟨[], first, steps, rfl, by simp, by simpa using hlength⟩
    · obtain ⟨before, rfl, hrest⟩ : ∃ between, before = first ++ between ∧ rest = between ++ after := by
        rcases List.append_eq_append_iff.mp hxs with ⟨between, hb, hr⟩ | ⟨between, hf, ha⟩
        · exact ⟨between, hb, hr⟩
        · have hnil : between = [] := by
            rw [hf, List.length_append] at hlength
            exact List.length_eq_zero_iff.mp (by omega)
          subst hnil
          exact ⟨[], by simpa using hf.symm, by simpa using ha.symm⟩
      obtain ⟨past, found, more, rfl, hle, hlt⟩ := ih hrest
      refine ⟨.found first :: past, found, more, rfl, ?_, ?_⟩ <;>
        simp only [ScanStep.sources_cons, ScanStep.source, List.length_append] <;> omega

/-- Where a match begins, one that is taken begins or goes on. -/
theorem exists_takes (hm : Matching Begins) (before : List α) {after : List α} {n : Nat}
    (hn : Begins after n) : ∃ b found, Takes Begins (before ++ after) b found ∧
      b.length ≤ before.length ∧ before.length < b.length + found.length := by
  obtain ⟨steps, hsteps⟩ := hm.exists_scan (before ++ after)
  obtain ⟨past, found, more, rfl, hle, hlt⟩ := hm.exists_found hsteps rfl hn
  exact ⟨_, found, ⟨past, more, hsteps, rfl⟩, hle, hlt⟩

/-- Matches that are taken do not overlap. -/
theorem takes_apart (hm : Matching Begins) {b found b' found' : List α}
    (h : Takes Begins xs b found) (h' : Takes Begins xs b' found') :
    b = b' ∧ found = found' ∨ b.length + found.length ≤ b'.length ∨
      b'.length + found'.length ≤ b.length := by
  obtain ⟨steps, more, hscan, rfl⟩ := h
  obtain ⟨steps', more', hscan', rfl⟩ := h'
  rcases List.append_eq_append_iff.mp (hm.scan_unique hscan hscan') with
    ⟨between, rfl, hfound⟩ | ⟨between, rfl, hfound⟩
  · cases between with
    | nil =>
      injection hfound with hstep
      injection hstep with hfound
      exact .inl ⟨by simp, hfound⟩
    | cons s between =>
      obtain ⟨rfl, -⟩ := List.cons.inj hfound
      right; left
      simp only [ScanStep.sources_append, ScanStep.sources_cons, ScanStep.source,
        List.length_append]
      omega
  · cases between with
    | nil =>
      injection hfound with hstep
      injection hstep with hfound
      exact .inl ⟨by simp, hfound.symm⟩
    | cons s between =>
      obtain ⟨rfl, -⟩ := List.cons.inj hfound
      right; right
      simp only [ScanStep.sources_append, ScanStep.sources_cons, ScanStep.source,
        List.length_append]
      omega

end Matching

end Localization
