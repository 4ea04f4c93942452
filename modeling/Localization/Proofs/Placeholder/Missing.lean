import Localization.Proofs.Fields
import Localization.Proofs.Order
import Localization.Proofs.Placeholder
import Localization.Proofs.Scan
import Localization.Proofs.Text

/-! Placeholders that a translation is said to lack. A placeholder of the source is missed where a
scan of the target takes none like it. That is so if it does not occur there, and also if it occurs
only where the scan takes a longer placeholder, or one that began before. -/

namespace Localization.Placeholder

/-- A placeholder of a text: a scan from left to right takes it. -/
def IsIn (p t : Text) : Prop := ∃ before, Takes Begins t before p

/-- What occurs behind `before` in a text belongs, from its start on, to another placeholder. -/
def Absorbed (t before p : Text) : Prop :=
  ∃ b q, Takes Begins t b q ∧ b.length ≤ before.length ∧ before.length < b.length + q.length ∧
    ¬ (b = before ∧ q = p)

/-- A text stands between blanks, or at an end. -/
def Apart (before after : Text) : Prop :=
  (∀ c ∈ before.getLast?, c.isBlank = true) ∧ ∀ c ∈ after.head?, c.isBlank = true

theorem matching : Matching Begins where
  pos := Begins.pos
  le_length := Begins.le_length
  unique h h' := Option.some.inj
    ((length?_eq_some_iff.mpr h).symm.trans (length?_eq_some_iff.mpr h'))

/-! The placeholders of a text. -/

/-- The match that a step of a scan takes. -/
def taken? : ScanStep CodePoint → Option Text
  | .item _ => none
  | .found p => some p

/-- Placeholders are found by scanning. -/
theorem all_eq {t : Text} {steps : List (ScanStep CodePoint)} (h : Scan Begins t steps) :
    all t = steps.filterMap taken? := by
  induction h with
  | nil => rfl
  | @item c t steps none _ ih =>
    have hlength : length? (c :: t) = Option.none := by
      rw [Option.eq_none_iff_forall_ne_some]
      exact fun n hn => none n (length?_eq_some_iff.mp hn)
    obtain ⟨g, ps, ht, hcons⟩ := pieces_cons_gap hlength
    rw [all, ht] at ih
    rw [all, hcons]
    exact ih
  | @found p t steps begins _ ih =>
    rw [all] at ih
    rw [all, pieces_placeholder (length?_eq_some_iff.mpr begins), List.take_left, List.drop_left]
    simp [taken?, ih]

theorem mem_all_iff {t p : Text} : p ∈ all t ↔ IsIn p t := by
  constructor
  · intro hp
    obtain ⟨steps, hsteps⟩ := matching.exists_scan t
    rw [all_eq hsteps] at hp
    obtain ⟨s, hs, htaken⟩ := List.mem_filterMap.mp hp
    cases s with
    | item c => cases htaken
    | found q =>
      obtain rfl := Option.some.inj htaken
      obtain ⟨past, more, rfl⟩ := List.append_of_mem hs
      exact ⟨_, past, more, hsteps, rfl⟩
  · rintro ⟨before, past, more, hscan, rfl⟩
    rw [all_eq hscan]
    exact List.mem_filterMap.mpr ⟨.found p, by simp, rfl⟩

/-! What follows a placeholder can make it longer, but not take it away. -/

theorem take_command (run rest : Text) :
    (Text.ofString "(command:" ++ (run ++ rest)).take (run.length + 9) =
      Text.ofString "(command:" ++ run := by
  rw [← List.append_assoc]
  exact List.take_left' (by simp [Text.ofString, Text.ofChars])

theorem take_icon (name rest : Text) :
    (CodePoint.char '$' :: .char '(' :: (name ++ .char ')' :: rest)).take (name.length + 3) =
      .char '$' :: .char '(' :: (name ++ [.char ')']) := by
  have hsplit : CodePoint.char '$' :: .char '(' :: (name ++ .char ')' :: rest) =
      (.char '$' :: .char '(' :: (name ++ [.char ')'])) ++ rest := by simp
  rw [hsplit]
  exact List.take_left' (by simp)

theorem take_brace (body rest : Text) :
    (CodePoint.char '{' :: (body ++ .char '}' :: rest)).take (body.length + 2) =
      .char '{' :: (body ++ [.char '}']) := by
  have hsplit : CodePoint.char '{' :: (body ++ .char '}' :: rest) =
      (.char '{' :: (body ++ [.char '}'])) ++ rest := by simp
  rw [hsplit]
  exact List.take_left' (by simp)

theorem Begins.extend {t : Text} {n : Nat} (h : Begins t n) (after : Text) :
    ∃ m, n ≤ m ∧ Begins (t.take n ++ after) m := by
  obtain ⟨run, rest, rfl, hrun, hrest⟩ := exists_solid_run after
  cases h with
  | @command name tail hne hname hends =>
    have hbegins : Begins (Text.ofString "(command:" ++ ((name ++ run) ++ rest))
        ((name ++ run).length + 9) :=
      .command (by simp [hne]) (List.forall_mem_append.mpr ⟨hname, hrun⟩) hrest
    refine ⟨(name ++ run).length + 9, by simp, ?_⟩
    rw [take_command]
    simpa only [List.append_assoc] using hbegins
  | @icon name tail hne hknown =>
    refine ⟨name.length + 3, le_rfl, ?_⟩
    rw [take_icon]
    have hbegins : Begins (.char '$' :: .char '(' :: (name ++ .char ')' :: (run ++ rest)))
        (name.length + 3) := .icon hne hknown
    simpa using hbegins
  | @brace body between tail hne hbody hbetween hlast hends =>
    rw [take_brace]
    by_cases hbrace : CodePoint.char '}' ∈ run
    · obtain ⟨more, last, rfl, hnone⟩ := exists_last_brace hbrace
      have hsolid : ∀ c ∈ body ++ .char '}' :: more, c.isBlank = false := by
        intro c hc
        simp only [List.mem_append, List.mem_cons] at hc
        rcases hc with hc | rfl | hc
        · exact hbody c hc
        · decide
        · exact hrun c (by simp [hc])
      have hbegins : Begins
          (.char '{' :: ((body ++ .char '}' :: more) ++ .char '}' :: (last ++ rest)))
          ((body ++ .char '}' :: more).length + 2) :=
        .brace (by simp) hsolid (fun c hc => hrun c (by simp [hc])) hnone hrest
      exact ⟨(body ++ .char '}' :: more).length + 2, by simp, by simpa using hbegins⟩
    · have hbegins := Begins.brace hne hbody hrun hbrace hrest
      exact ⟨body.length + 2, le_rfl, by simpa using hbegins⟩

theorem isBlank_iconChar {c : CodePoint} (h : isIconChar c = true) : c.isBlank = false := by
  cases c with
  | surrogate n => rfl
  | char c =>
    simp only [isIconChar, Bool.or_eq_true, beq_iff_eq] at h
    rcases h with (h | rfl) | rfl
    · have hrange := range_of_isAlpha h
      rw [← Bool.not_eq_true]
      simp [CodePoint.isBlank, isBlankChar]
      omega
    · decide
    · decide

/-- There is no blank in a placeholder. -/
theorem Begins.solid {t : Text} {n : Nat} (h : Begins t n) :
    ∀ c ∈ t.take n, c.isBlank = false := by
  cases h with
  | command hne hrun hends =>
    have hmark : ∀ c ∈ Text.ofString "(command:", c.isBlank = false := by decide
    rw [take_command]
    exact List.forall_mem_append.mpr ⟨hmark, hrun⟩
  | icon hne hknown =>
    rw [take_icon]
    intro c hc
    simp only [List.mem_cons, List.mem_append, List.not_mem_nil, or_false] at hc
    rcases hc with rfl | rfl | hc | rfl
    · decide
    · decide
    · exact isBlank_iconChar (hknown c hc)
    · decide
  | brace hne hbody htail hlast hends =>
    rw [take_brace]
    intro c hc
    simp only [List.mem_cons, List.mem_append, List.not_mem_nil, or_false] at hc
    rcases hc with rfl | hc | rfl
    · decide
    · exact hbody c hc
    · decide

/-! What becomes of a placeholder of the source. -/

theorem IsIn.begins {p t : Text} (h : IsIn p t) : ∃ rest, Begins (p ++ rest) p.length := by
  obtain ⟨before, h⟩ := h
  obtain ⟨after, -, hbegins⟩ := h.split
  exact ⟨after, hbegins⟩

theorem IsIn.isInfix {p t : Text} (h : IsIn p t) : p <:+: t := by
  obtain ⟨before, h⟩ := h
  obtain ⟨after, ht, -⟩ := h.split
  exact ⟨before, after, ht.symm⟩

/-- Where a placeholder occurs in a text, a scan takes one there that is as long or longer, or one
that began before. -/
theorem IsIn.absorbed_or_takes {p t before after : Text} (h : IsIn p t) {target : Text}
    (htarget : target = before ++ p ++ after) :
    Absorbed target before p ∨ Takes Begins target before p := by
  obtain ⟨rest, hbegins⟩ := h.begins
  obtain ⟨m, -, hm⟩ := hbegins.extend after
  rw [List.take_left] at hm
  obtain ⟨b, q, htakes, hle, hlt⟩ := matching.exists_takes before hm
  rw [← List.append_assoc, ← htarget] at htakes
  by_cases hsame : b = before ∧ q = p
  · obtain ⟨rfl, rfl⟩ := hsame
    exact .inr htakes
  · exact .inl ⟨b, q, htakes, hle, hlt, hsame⟩

/-- A placeholder that a scan takes does not belong to another one. -/
theorem not_absorbed_of_takes {target before p : Text} (h : Takes Begins target before p) :
    ¬ Absorbed target before p := by
  rintro ⟨b, q, htakes, hle, hlt, hother⟩
  obtain ⟨after, -, hbegins⟩ := h.split
  have hpos := hbegins.pos
  rcases matching.takes_apart htakes h with hsame | hbefore | hbehind
  · exact hother hsame
  · omega
  · omega

theorem not_isIn_iff {p source target : Text} (h : IsIn p source) :
    ¬ IsIn p target ↔
      ∀ before after, target = before ++ p ++ after → Absorbed target before p := by
  constructor
  · intro hno before after htarget
    exact (h.absorbed_or_takes htarget).resolve_right fun htakes => hno ⟨before, htakes⟩
  · rintro hall ⟨before, htakes⟩
    obtain ⟨after, htarget, -⟩ := htakes.split
    exact not_absorbed_of_takes htakes (hall before after htarget)

/-- What is taken at the start of a placeholder goes on at least to its end. -/
theorem IsIn.length_le {p t q rest after : Text} (h : IsIn p t) (hq : Begins (q ++ rest) q.length)
    (hsame : q ++ rest = p ++ after) : p.length ≤ q.length := by
  obtain ⟨more, hp⟩ := h.begins
  obtain ⟨m, hle, hm⟩ := hp.extend after
  rw [List.take_left, ← hsame] at hm
  rwa [matching.unique hq hm]

/-- A placeholder of the source that stands between blanks in the target is one of the target. -/
theorem IsIn.of_apart {p source target before after : Text} (h : IsIn p source)
    (htarget : target = before ++ p ++ after) (hapart : Apart before after) : IsIn p target := by
  rcases h.absorbed_or_takes htarget with ⟨b, q, htakes, hle, hlt, hother⟩ | htakes
  · exfalso
    rw [htarget, List.append_assoc] at htakes
    obtain ⟨front, back, rest, rfl, rfl, -, hafter, hbegins⟩ := htakes.cut hle hlt
    have hsolid : ∀ c ∈ front ++ back, c.isBlank = false := by
      have hsolid := hbegins.solid
      rwa [List.take_left] at hsolid
    -- Nothing that began before reaches over a blank.
    have hfront : front = [] := by
      by_contra hne
      obtain ⟨init, c, rfl⟩ := (List.eq_nil_or_concat front).resolve_left hne
      have hblank := hapart.1 c (by simp)
      have hplain := hsolid c (by simp)
      rw [hplain] at hblank
      cases hblank
    subst hfront
    rw [List.nil_append] at hbegins hsolid
    have hlength := h.length_le hbegins hafter.symm
    have hback : back <+: p ++ after := by
      rw [hafter]
      exact List.prefix_append back rest
    obtain ⟨more, rfl⟩ :=
      List.prefix_of_prefix_length_le (List.prefix_append p after) hback hlength
    cases more with
    | nil => exact hother ⟨by simp, by simp⟩
    | cons c more =>
      rw [List.append_assoc, List.append_cancel_left_eq] at hafter
      have hblank := hapart.2 c (by simp [hafter])
      have hplain := hsolid c (by simp)
      rw [hplain] at hblank
      cases hblank
  · exact ⟨before, htakes⟩

theorem mem_missing_iff {source target p : Text} :
    p ∈ missing source target ↔ IsIn p source ∧ ¬ IsIn p target := by
  have hsorted : p ∈ missing source target ↔
      p ∈ (distinct source).filter fun p => !(all target).contains p :=
    (List.mergeSort_perm _ _).mem_iff
  rw [hsorted, ← mem_all_iff, ← mem_all_iff, List.mem_filter, distinct, List.mem_eraseDups]
  simp

/-- Missing placeholders come once each, in the order of their code points. -/
theorem missing_ordered (source target : Text) :
    (missing source target).Pairwise fun a b => Text.leByCodePoint a b = true ∧ a ≠ b := by
  have hsorted : (missing source target).Pairwise fun a b => Text.leByCodePoint a b = true := by
    refine List.pairwise_mergeSort (fun a b c hab hbc => ?_) (fun a b => ?_) _
    · exact dictionaryLe_trans hab hbc
    · exact dictionaryLe_total _ _
  have hnodup : (missing source target).Nodup :=
    (List.mergeSort_perm _ _).nodup_iff.mpr ((nodup_eraseDups _).filter _)
  exact hsorted.and hnodup

/-- Whatever the two texts are, what is reported are placeholders of the source, each of them once
and in the order of their code points. One is reported exactly if, wherever it occurs in the target,
it belongs to another placeholder there; so it is reported if it does not occur, and not reported if
it occurs between blanks. That those that do not occur are the only ones holds exactly if every
placeholder of the source that occurs in the target is a placeholder of the target. -/
theorem validate_reported (source target : Text) : ∃ lost : List Text,
    validate source target = lost.map missingMessage ∧
      lost.Pairwise (fun a b => Text.leByCodePoint a b = true ∧ a ≠ b) ∧
      (∀ p, p ∈ lost ↔ IsIn p source ∧
        ∀ before after, target = before ++ p ++ after → Absorbed target before p) ∧
      (∀ p, IsIn p source → ¬ p <:+: target → p ∈ lost) ∧
      (∀ p before after, target = before ++ p ++ after → Apart before after → p ∉ lost) ∧
      ((∀ p, IsIn p source → (p ∈ lost ↔ ¬ p <:+: target)) ↔
        ∀ p, IsIn p source → p <:+: target → IsIn p target) := by
  refine ⟨missing source target, rfl, missing_ordered source target, fun p => ?_,
    fun p hp hno => ?_, fun p before after htarget hapart hp => ?_, ?_⟩
  · rw [mem_missing_iff]
    exact and_congr_right fun hp => not_isIn_iff hp
  · exact mem_missing_iff.mpr ⟨hp, fun hin => hno hin.isInfix⟩
  · obtain ⟨hsource, hno⟩ := mem_missing_iff.mp hp
    exact hno (hsource.of_apart htarget hapart)
  · constructor
    · intro hall p hp hoccurs
      by_contra hno
      exact (hall p hp).mp (mem_missing_iff.mpr ⟨hp, hno⟩) hoccurs
    · intro hkept p hp
      rw [mem_missing_iff, and_iff_right hp]
      exact ⟨fun hno hoccurs => hno (hkept p hp hoccurs), fun hno hin => hno hin.isInfix⟩

/-- Two placeholders with no blank between them are one, so both are reported although they stand
in the target. -/
theorem validate_reported_joined :
    let source : Text := "\x7b0\x7d \x7b1\x7d"
    let target : Text := "\x7b0\x7d、\x7b1\x7d"
    ∃ lost : List Text, validate source target = lost.map missingMessage ∧
      ∀ p ∈ (["\x7b0\x7d", "\x7b1\x7d"] : List Text), p ∈ lost ∧ p <:+: target := by
  intro source target
  have hsource : ∀ p ∈ (["\x7b0\x7d", "\x7b1\x7d"] : List Text), p ∈ all source := by
    decide +kernel
  have htarget : ∀ p ∈ (["\x7b0\x7d", "\x7b1\x7d"] : List Text), p ∉ all target := by
    decide +kernel
  have hoccurs : ∀ p ∈ (["\x7b0\x7d", "\x7b1\x7d"] : List Text), p <:+: target := by
    decide +kernel
  obtain ⟨lost, hvalidate, -, hlost, -⟩ := validate_reported source target
  refine ⟨lost, hvalidate, fun p hp => ⟨?_, hoccurs p hp⟩⟩
  have hin := mem_all_iff.mp (hsource p hp)
  exact (hlost p).mpr ⟨hin, (not_isIn_iff hin).mp (mt mem_all_iff.mpr (htarget p hp))⟩

end Localization.Placeholder
