import Localization.Proofs.Scan
import Localization.Xliff.Entity

/-! Entities form a code: none of them begins another, and the sign that they begin with does not
stand for itself. So text says where each of its entities is, and as the entity of that sign is
decoded last, replacing one entity after the other comes to the same as a scan that replaces each
where it finds it. Encoded text gives the text back, and one encoded text begins another exactly
when the texts do. -/

namespace Localization.Xliff.Entity

/-- The character of the entity that a text begins with, and the length of the entity. -/
def entityAt? (t : Text) : Option (CodePoint × Nat) :=
  (decodeOrder.find? fun e => e.1.isPrefixOf t).map fun e => (e.2, e.1.length)

/-- One pass over a text, after `skip` code points. -/
def decodeFrom : (skip : Nat) → Text → Text
  | _, [] => []
  | n + 1, _ :: t => decodeFrom n t
  | 0, p :: t =>
    match entityAt? (p :: t) with
    | some (c, n) => c :: decodeFrom (n - 1) t
    | none => p :: decodeFrom 0 t

/-- Text with each entity replaced by its character in one pass from left to right. -/
def decodeOnce (t : Text) : Text := decodeFrom 0 t

/-- The sign that entities begin with. -/
def ampersand : CodePoint := .char '&'

theorem entity_begins : ∀ e ∈ decodeOrder, ∃ name, e.1 = ampersand :: name ∧ ampersand ∉ name := by
  intro e he
  simp only [decodeOrder, List.mem_cons, List.not_mem_nil, or_false] at he
  rcases he with rfl | rfl | rfl | rfl | rfl | rfl | rfl <;> exact ⟨_, rfl, by decide⟩

theorem entity_eq_of_isPrefix : ∀ e ∈ decodeOrder, ∀ f ∈ decodeOrder, e.1 <+: f.1 → e = f := by
  decide

/-- Behind its sign, no entity holds what an entity stands for. -/
theorem not_mem_tail : ∀ e ∈ decodeOrder, ∀ f ∈ decodeOrder, f.2 ∉ e.1.tail := by decide

theorem lookup_entity : ∀ e ∈ decodeOrder, decodeOrder.lookup e.1 = some e.2 := by decide

/-- The sign of the entities is decoded last. -/
theorem decodeOrder_pairwise : decodeOrder.Pairwise fun f e => f.2 ≠ ampersand ∧ f.1 ≠ e.1 := by
  decide

/-- Entities do not begin one another, whatever follows. -/
theorem entity_append {e f : Text × CodePoint} (he : e ∈ decodeOrder) (hf : f ∈ decodeOrder)
    {after : Text} (h : e.1 <+: f.1 ++ after) : e = f := by
  rcases List.prefix_or_prefix_of_prefix h (List.prefix_append f.1 after) with h | h
  · exact entity_eq_of_isPrefix e he f hf h
  · exact (entity_eq_of_isPrefix f hf e he h).symm

/-- An entity does not begin inside of another one. -/
theorem entity_suffix {e f : Text × CodePoint} (he : e ∈ decodeOrder) (hf : f ∈ decodeOrder)
    {ys after : Text} (hys : ys <:+ f.1) (hne : ys ≠ []) (h : e.1 <+: ys ++ after) : e = f := by
  obtain ⟨y, ys, rfl⟩ := List.exists_cons_of_ne_nil hne
  obtain ⟨name, hname, -⟩ := entity_begins e he
  obtain ⟨name', hname', hinner⟩ := entity_begins f hf
  obtain rfl : ampersand = y := by
    rw [hname, List.cons_append, List.cons_prefix_cons] at h
    exact h.1
  have hwhole : ampersand :: ys = f.1 := by
    rw [hname', List.suffix_cons_iff] at hys
    rcases hys with hys | hys
    · rw [hname', hys]
    · exact absurd (hys.subset (by simp)) hinner
  exact entity_append he hf (hwhole ▸ h)

section Replacing

variable {pattern part : Text}

theorem replaceGo_skip (xs after : Text) :
    replaceGo pattern part xs.length (xs ++ after) = replaceGo pattern part 0 after := by
  induction xs with
  | nil => rfl
  | cons x xs ih => exact ih

/-- An occurrence of the pattern is replaced. -/
theorem replaceGo_pattern (h : pattern ≠ []) (after : Text) :
    replaceGo pattern part 0 (pattern ++ after) = part ++ replaceGo pattern part 0 after := by
  obtain ⟨p, rest, rfl⟩ := List.exists_cons_of_ne_nil h
  have hstarts : (p :: rest).isPrefixOf (p :: (rest ++ after)) = true := by
    rw [List.isPrefixOf_iff_prefix, ← List.cons_append]
    exact List.prefix_append _ _
  rw [List.cons_append, replaceGo, if_pos hstarts, List.length_cons, Nat.add_sub_cancel,
    replaceGo_skip]

/-- Text in which the pattern does not begin, whatever follows, is left as it is. -/
theorem replaceGo_append {xs : Text} (after : Text)
    (h : ∀ ys, ys <:+ xs → ys ≠ [] → ¬ pattern <+: ys ++ after) :
    replaceGo pattern part 0 (xs ++ after) = xs ++ replaceGo pattern part 0 after := by
  induction xs with
  | nil => rfl
  | cons x xs ih =>
    have hx : pattern.isPrefixOf (x :: (xs ++ after)) = false := by
      rw [← Bool.not_eq_true, List.isPrefixOf_iff_prefix]
      exact h (x :: xs) (List.suffix_refl _) (by simp)
    rw [List.cons_append, replaceGo, hx, ih fun ys hys => h ys (hys.trans (List.suffix_cons x xs))]
    rfl

/-- A code point with which the pattern does not begin there is left as it is. -/
theorem replaceGo_cons {x : CodePoint} {after : Text} (h : ¬ pattern <+: x :: after) :
    replaceGo pattern part 0 (x :: after) = x :: replaceGo pattern part 0 after := by
  rw [replaceGo, if_neg (by rwa [List.isPrefixOf_iff_prefix])]

end Replacing

theorem replaceAll_entity_eq {e : Text × CodePoint} (he : e ∈ decodeOrder) (t : Text) :
    replaceAll e.1 [e.2] t = replaceGo e.1 [e.2] 0 t := by
  obtain ⟨name, hname, -⟩ := entity_begins e he
  rw [replaceAll, if_neg (by simp [hname])]

/-! Scans for entities. -/

/-- A text begins with an entity of a length. -/
def Begins (t : Text) (n : Nat) : Prop := ∃ e ∈ decodeOrder, e.1 <+: t ∧ e.1.length = n

theorem matching : Matching Begins where
  pos := by
    rintro _ _ ⟨e, he, -, rfl⟩
    obtain ⟨name, hname, -⟩ := entity_begins e he
    simp [hname]
  le_length := by
    rintro _ _ ⟨e, -, hprefix, rfl⟩
    exact hprefix.length_le
  unique := by
    rintro _ _ _ ⟨e, he, ⟨after, rfl⟩, rfl⟩ ⟨f, hf, hprefix, rfl⟩
    rw [entity_append hf he hprefix]

/-- What a scan takes is an entity. -/
theorem Begins.exists_entity {xs after : Text} (h : Begins (xs ++ after) xs.length) :
    ∃ e ∈ decodeOrder, e.1 = xs := by
  obtain ⟨e, he, hprefix, hlength⟩ := h
  exact ⟨e, he, (List.prefix_of_prefix_length_le hprefix (List.prefix_append xs after)
    (Nat.le_of_eq hlength)).eq_of_length hlength⟩

/-- What stands for a step of a scan once some entities are decoded: these are their characters, and
the others are as they were. -/
def decodedBy (done : List (Text × CodePoint)) : ScanStep CodePoint → Text
  | .item p => [p]
  | .found xs => ((done.lookup xs).map fun p => [p]).getD xs

/-- What stands for a step of a scan once its entity is decoded. -/
def decodedStep : ScanStep CodePoint → Text := decodedBy decodeOrder

theorem decodedBy_nil (steps : List (ScanStep CodePoint)) :
    steps.flatMap (decodedBy []) = ScanStep.sources steps := by
  rw [ScanStep.sources]
  congr 1
  funext s
  cases s <;> rfl

theorem decodedBy_found (done : List (Text × CodePoint)) (xs : Text) :
    (∃ p, (xs, p) ∈ done ∧ done.lookup xs = some p ∧ decodedBy done (.found xs) = [p]) ∨
      done.lookup xs = none ∧ decodedBy done (.found xs) = xs := by
  rw [decodedBy]
  cases h : done.lookup xs with
  | none => exact .inr ⟨rfl, rfl⟩
  | some p =>
    obtain ⟨before, after, hdone, -⟩ := List.lookup_eq_some_iff.mp h
    exact .inl ⟨p, by simp [hdone], rfl, rfl⟩

theorem decodedStep_entity {e : Text × CodePoint} (he : e ∈ decodeOrder) :
    decodedStep (.found e.1) = [e.2] := by
  rw [decodedStep, decodedBy, lookup_entity e he]
  rfl

section Decoding

variable {t : Text} {steps : List (ScanStep CodePoint)} {done : List (Text × CodePoint)}

/-- Where the rest of an entity begins once some entities are decoded, it began before: it holds
nothing that an entity stands for, and no sign that an entity begins with. -/
theorem prefix_of_decodedBy {name : Text} (hdone : ∀ f ∈ done, f ∈ decodeOrder)
    (hname : ∀ f ∈ decodeOrder, f.2 ∉ name) (hscan : Scan Begins t steps)
    (h : name <+: steps.flatMap (decodedBy done)) : name <+: t := by
  induction hscan generalizing name with
  | nil => exact h
  | @item p rest steps _ _ ih =>
    cases name with
    | nil => exact List.nil_prefix
    | cons c name =>
      rw [List.flatMap_cons, decodedBy, List.singleton_append, List.cons_prefix_cons] at h
      rw [List.cons_prefix_cons]
      exact ⟨h.1, ih (fun f hf hmem => hname f hf (List.mem_cons_of_mem c hmem)) h.2⟩
  | @found xs rest steps begins _ _ =>
    cases name with
    | nil => exact List.nil_prefix
    | cons c name =>
      exfalso
      rw [List.flatMap_cons] at h
      obtain ⟨p, hp, -, hstep⟩ | ⟨-, hstep⟩ := decodedBy_found done xs
      · rw [hstep, List.singleton_append, List.cons_prefix_cons] at h
        exact hname _ (hdone _ hp) (h.1 ▸ List.mem_cons_self)
      · obtain ⟨e, he, rfl⟩ := begins.exists_entity
        obtain ⟨rest, hrest, -⟩ := entity_begins e he
        rw [hstep, hrest, List.cons_append, List.cons_prefix_cons] at h
        exact hname (Text.ofString "&amp;", ampersand) (by decide) (h.1 ▸ List.mem_cons_self)

/-- Replacing a further entity decodes it where a scan of the text finds it, and nowhere else, as
long as the sign that entities begin with is not decoded. -/
theorem replaceAll_decodedBy {e : Text × CodePoint} (he : e ∈ decodeOrder)
    (hdone : ∀ f ∈ done, f ∈ decodeOrder) (hsign : ∀ f ∈ done, f.2 ≠ ampersand ∧ f.1 ≠ e.1)
    (hscan : Scan Begins t steps) : replaceAll e.1 [e.2] (steps.flatMap (decodedBy done)) =
      steps.flatMap (decodedBy (done ++ [e])) := by
  obtain ⟨name, hname, -⟩ := entity_begins e he
  rw [replaceAll_entity_eq he]
  induction hscan with
  | nil => rfl
  | @item p rest steps none hmore ih =>
    have hnone : ¬ e.1 <+: p :: steps.flatMap (decodedBy done) := by
      intro h
      rw [hname, List.cons_prefix_cons] at h
      have htail : ∀ f ∈ decodeOrder, f.2 ∉ name := fun f hf => by
        simpa [hname] using not_mem_tail e he f hf
      have hrest := prefix_of_decodedBy hdone htail hmore h.2
      exact none _ ⟨e, he, by rw [hname, List.cons_prefix_cons]; exact ⟨h.1, hrest⟩, rfl⟩
    rw [List.flatMap_cons, List.flatMap_cons, decodedBy, decodedBy, List.singleton_append,
      List.singleton_append, replaceGo_cons hnone, ih]
  | @found xs rest steps begins _ ih =>
    rw [List.flatMap_cons, List.flatMap_cons]
    obtain ⟨f, hf, rfl⟩ := begins.exists_entity
    obtain ⟨p, hp, hlookup, hstep⟩ | ⟨hlookup, hstep⟩ := decodedBy_found done f.1
    · have hnone : ¬ e.1 <+: p :: steps.flatMap (decodedBy done) := by
        rw [hname, List.cons_prefix_cons]
        exact fun h => (hsign _ hp).1 h.1.symm
      have hsame : decodedBy (done ++ [e]) (.found f.1) = [p] := by
        rw [decodedBy, List.lookup_append, hlookup]
        rfl
      rw [hstep, hsame, List.singleton_append, List.singleton_append, replaceGo_cons hnone, ih]
    · by_cases hef : e = f
      · subst hef
        have hdecoded : decodedBy (done ++ [e]) (.found e.1) = [e.2] := by
          rw [decodedBy, List.lookup_append, hlookup, List.lookup_cons, beq_self_eq_true]
          rfl
        rw [hstep, hdecoded, replaceGo_pattern (by simp [hname]), ih]
      · have hother : f.1 ≠ e.1 := fun h =>
          hef (entity_eq_of_isPrefix e he f hf (h ▸ List.prefix_refl _))
        have hsame : decodedBy (done ++ [e]) (.found f.1) = f.1 := by
          rw [decodedBy, List.lookup_append, hlookup, List.lookup_cons, beq_false_of_ne hother]
          rfl
        rw [hstep, hsame,
          replaceGo_append _ fun ys hys hne h => hef (entity_suffix he hf hys hne h), ih]

/-- Decoding replaces what a scan finds. -/
theorem decode_eq_of_scan (hscan : Scan Begins t steps) : decode t = steps.flatMap decodedStep := by
  -- `done` are the entities that have been replaced, and `order` those that are left.
  have hfold : ∀ order done : List (Text × CodePoint), done ++ order = decodeOrder →
      order.foldl (fun t e => replaceAll e.1 [e.2] t) (steps.flatMap (decodedBy done)) =
        steps.flatMap decodedStep := by
    intro order
    induction order with
    | nil =>
      intro done hall
      rw [List.foldl_nil, decodedStep, ← hall, List.append_nil]
    | cons e order ih =>
      intro done hall
      have hmem : ∀ f, f ∈ done ∨ f ∈ e :: order → f ∈ decodeOrder := fun f hf =>
        hall ▸ List.mem_append.mpr hf
      have hbefore := (List.pairwise_append.mp (hall ▸ decodeOrder_pairwise)).2.2
      rw [List.foldl_cons, replaceAll_decodedBy (hmem e (.inr List.mem_cons_self))
        (fun f hf => hmem f (.inl hf)) (fun f hf => hbefore f hf e List.mem_cons_self) hscan]
      exact ih (done ++ [e]) (by rw [← hall, List.append_assoc, List.singleton_append])
  rw [decode, ← hfold decodeOrder [] rfl, decodedBy_nil, hscan.sources]

theorem decodeFrom_skip (xs after : Text) :
    decodeFrom xs.length (xs ++ after) = decodeFrom 0 after := by
  induction xs with
  | nil => rfl
  | cons x xs ih => exact ih

theorem entityAt?_append {e : Text × CodePoint} (he : e ∈ decodeOrder) (after : Text) :
    entityAt? (e.1 ++ after) = some (e.2, e.1.length) := by
  rw [entityAt?]
  cases hfind : decodeOrder.find? fun f => f.1.isPrefixOf (e.1 ++ after) with
  | none =>
    have hself := List.find?_eq_none.mp hfind e he
    exact absurd (List.isPrefixOf_iff_prefix.mpr (List.prefix_append e.1 after)) hself
  | some f =>
    have hprefix := List.isPrefixOf_iff_prefix.mp (List.find?_eq_some_iff_append.mp hfind).1
    rw [entity_append (List.mem_of_find?_eq_some hfind) he hprefix]
    rfl

theorem entityAt?_eq_none (h : ∀ n, ¬ Begins t n) : entityAt? t = none := by
  rw [entityAt?, Option.map_eq_none_iff, List.find?_eq_none]
  exact fun e he hprefix => h _ ⟨e, he, List.isPrefixOf_iff_prefix.mp hprefix, rfl⟩

/-- One pass over a text replaces what a scan finds. -/
theorem decodeOnce_eq_of_scan (hscan : Scan Begins t steps) :
    decodeOnce t = steps.flatMap decodedStep := by
  rw [decodeOnce]
  induction hscan with
  | nil => rfl
  | @item p rest steps none _ ih =>
    rw [decodeFrom, entityAt?_eq_none none]
    dsimp only
    rw [ih]
    rfl
  | @found xs rest steps begins _ ih =>
    obtain ⟨e, he, rfl⟩ := begins.exists_entity
    obtain ⟨name, hname, -⟩ := entity_begins e he
    have hat := entityAt?_append he rest
    rw [List.flatMap_cons, decodedStep_entity he, ← ih]
    rw [hname, List.cons_append] at hat ⊢
    rw [decodeFrom, hat]
    dsimp only
    rw [List.length_cons, Nat.add_sub_cancel, decodeFrom_skip, List.singleton_append]

theorem mem_of_mem_decodedStep {s : ScanStep CodePoint} {p : CodePoint} (h : p ∈ decodedStep s) :
    p ∈ s.source ∨ ∃ e ∈ decodeOrder, e.2 = p := by
  cases s with
  | item q => exact .inl h
  | found xs =>
    rw [decodedStep] at h
    obtain ⟨q, hq, -, hstep⟩ | ⟨-, hstep⟩ := decodedBy_found decodeOrder xs
    · rw [hstep, List.mem_singleton] at h
      exact .inr ⟨_, hq, h.symm⟩
    · exact .inl (hstep ▸ h)

/-- What stands in decoded text stood in the text, or an entity stands for it. -/
theorem mem_decode {p : CodePoint} (h : p ∈ decode t) :
    p ∈ t ∨ ∃ e ∈ decodeOrder, e.2 = p := by
  obtain ⟨steps, hscan⟩ := matching.exists_scan t
  rw [decode_eq_of_scan hscan, List.mem_flatMap] at h
  obtain ⟨s, hs, hp⟩ := h
  refine (mem_of_mem_decodedStep hp).imp_left fun hsource => ?_
  rw [← hscan.sources]
  exact List.mem_flatMap.mpr ⟨s, hs, hsource⟩

theorem length_decoded_le (hscan : Scan Begins t steps) :
    (steps.flatMap decodedStep).length ≤ t.length := by
  induction hscan with
  | nil => exact Nat.le_refl _
  | item _ _ ih => exact Nat.succ_le_succ ih
  | found begins _ ih =>
    obtain ⟨e, he, rfl⟩ := begins.exists_entity
    obtain ⟨name, hname, -⟩ := entity_begins e he
    rw [List.flatMap_cons, decodedStep_entity he, List.length_append, List.length_append, hname]
    simp only [List.length_cons, List.length_nil]
    omega

/-- A scan of a text in which an entity is found leaves less of it. -/
theorem decoded_eq_self_iff (hscan : Scan Begins t steps) :
    steps.flatMap decodedStep = t ↔ ∀ e ∈ decodeOrder, occursIn e.1 t = false := by
  induction hscan with
  | nil => simp only [List.flatMap_nil, true_iff]; decide
  | @item p rest steps none _ ih =>
    have hnone : ∀ e ∈ decodeOrder, e.1.isPrefixOf (p :: rest) = false := fun e he => by
      rw [← Bool.not_eq_true, List.isPrefixOf_iff_prefix]
      exact fun h => none _ ⟨e, he, h, rfl⟩
    have hcons :
        (ScanStep.item p :: steps).flatMap decodedStep = p :: steps.flatMap decodedStep := rfl
    rw [hcons, List.cons_inj_right, ih]
    refine forall_congr' fun e => imp_congr_right fun he => ?_
    rw [occursIn, hnone e he, Bool.false_or]
  | @found xs rest steps begins hmore _ =>
    obtain ⟨e, he, rfl⟩ := begins.exists_entity
    obtain ⟨name, hname, -⟩ := entity_begins e he
    refine iff_of_false (fun h => ?_) fun h => ?_
    · have hlength := congrArg List.length h
      have hle := length_decoded_le hmore
      have hlong : 2 ≤ e.1.length := (by decide : ∀ e ∈ decodeOrder, 2 ≤ e.1.length) e he
      rw [List.flatMap_cons, decodedStep_entity he, List.length_append, List.length_append,
        List.length_singleton] at hlength
      omega
    · have hoccurs := h e he
      rw [hname, List.cons_append, occursIn, Bool.or_eq_false_iff, ← Bool.not_eq_true,
        List.isPrefixOf_iff_prefix, ← List.cons_append] at hoccurs
      exact hoccurs.1 (List.prefix_append _ rest)

/-- Decoding leaves a text as it is exactly if no entity occurs in it. -/
theorem decode_eq_self_iff : decode t = t ↔ ∀ e ∈ decodeOrder, occursIn e.1 t = false := by
  obtain ⟨steps, hscan⟩ := matching.exists_scan t
  rw [decode_eq_of_scan hscan]
  exact decoded_eq_self_iff hscan

end Decoding

/-! Encoded text. -/

/-- A code point is written as its entity, or as itself if it has none. -/
theorem encodeOne_cases (p : CodePoint) : (∃ e ∈ decodeOrder, e.2 = p ∧ encodeOne p = e.1) ∨
    (∀ e ∈ decodeOrder, e.2 ≠ p) ∧ encodeOne p = [p] := by
  by_cases h : ∃ e ∈ decodeOrder, e.2 = p
  · obtain ⟨e, he, rfl⟩ := h
    refine .inl ⟨e, he, rfl, ?_⟩
    simp only [decodeOrder, List.mem_cons, List.not_mem_nil, or_false] at he
    rcases he with rfl | rfl | rfl | rfl | rfl | rfl | rfl <;> rfl
  · refine .inr ⟨fun e he hp => h ⟨e, he, hp⟩, ?_⟩
    cases p with
    | surrogate n => rfl
    | char c =>
      have hc : entityOf? c = none := by
        rw [entityOf?]
        all_goals
          rintro rfl
          exact h (by decide)
      rw [encodeOne, hc]

/-- A code point that has no entity is no sign of one. -/
theorem ne_ampersand {p : CodePoint} (h : ∀ e ∈ decodeOrder, e.2 ≠ p) : ampersand ≠ p :=
  h (Text.ofString "&amp;", ampersand) (by decide)

/-- A scan of encoded text finds the entities that were written, which stand for the text. -/
theorem exists_scan_encode (t : Text) :
    ∃ steps, Scan Begins (encode t) steps ∧ steps.flatMap decodedStep = t := by
  induction t with
  | nil => exact ⟨[], .nil, rfl⟩
  | cons p t ih =>
    obtain ⟨steps, hscan, hsteps⟩ := ih
    have hencode : encode (p :: t) = encodeOne p ++ encode t := List.flatMap_cons
    obtain ⟨e, he, rfl, hp⟩ | ⟨hnone, hp⟩ := encodeOne_cases p
    · refine ⟨.found e.1 :: steps, ?_, ?_⟩
      · rw [hencode, hp]
        exact .found ⟨e, he, List.prefix_append _ _, rfl⟩ hscan
      · rw [List.flatMap_cons, decodedStep_entity he, hsteps, List.singleton_append]
    · refine ⟨.item p :: steps, ?_, ?_⟩
      · rw [hencode, hp]
        refine .item (fun n hbegins => ?_) hscan
        obtain ⟨e, he, hprefix, -⟩ := hbegins
        obtain ⟨name, hname, -⟩ := entity_begins e he
        rw [hname, List.cons_prefix_cons] at hprefix
        exact ne_ampersand hnone hprefix.1
      · rw [List.flatMap_cons, hsteps]
        rfl

/-- Decoding gives back the text that was encoded. -/
theorem decode_encode (t : Text) : decode (encode t) = t := by
  obtain ⟨steps, hscan, hsteps⟩ := exists_scan_encode t
  rw [decode_eq_of_scan hscan, hsteps]

/-- Replacing one entity after the other comes to the same as one pass from left to right, which
puts a character in place of each entity that it comes to and goes on behind it. So decoding gives
back the text that was encoded, whatever entities stand in it. -/
theorem decode_in_one_pass (t : Text) :
    decode t = decodeOnce t ∧
      (∃ steps, Scan Begins t steps ∧ decode t = steps.flatMap decodedStep) ∧
      decode (encode t) = t := by
  obtain ⟨steps, hscan⟩ := matching.exists_scan t
  have hdecode := decode_eq_of_scan hscan
  exact ⟨hdecode.trans (decodeOnce_eq_of_scan hscan).symm, ⟨steps, hscan, hdecode⟩,
    decode_encode t⟩

/-- What comes of `&amp;` is no part of another entity. -/
example : decode "&amp;lt;&#10;&amp" = "&lt;\n&amp" := by decide

theorem encodeOne_inj {p q : CodePoint} {a b : Text}
    (h : encodeOne p ++ a = encodeOne q ++ b) : p = q ∧ a = b := by
  have hsame : p = q := by
    rcases encodeOne_cases p with ⟨e, he, rfl, hp⟩ | ⟨hp', hp⟩ <;>
      rcases encodeOne_cases q with ⟨f, hf, rfl, hq⟩ | ⟨hq', hq⟩ <;> rw [hp, hq] at h
    · rw [entity_append he hf (h ▸ List.prefix_append e.1 a)]
    · obtain ⟨name, hname, -⟩ := entity_begins e he
      rw [hname] at h
      exact absurd (List.cons.inj h).1 (ne_ampersand hq')
    · obtain ⟨name, hname, -⟩ := entity_begins f hf
      rw [hname] at h
      exact absurd (List.cons.inj h).1.symm (ne_ampersand hp')
    · exact (List.cons.inj h).1
  subst hsame
  exact ⟨rfl, List.append_cancel_left h⟩

theorem encodeOne_ne_nil (p : CodePoint) : encodeOne p ≠ [] := by
  rcases encodeOne_cases p with ⟨e, he, -, h⟩ | ⟨-, h⟩
  · obtain ⟨name, hname, -⟩ := entity_begins e he
    simp [h, hname]
  · simp [h]

/-- Encoding keeps what a text begins with, and shows it. -/
theorem encode_prefix_iff {m k : Text} : encode m <+: encode k ↔ m <+: k := by
  constructor
  · rintro ⟨rest, h⟩
    induction m generalizing k with
    | nil => exact List.nil_prefix
    | cons p m ih =>
      cases k with
      | nil => simp [encode, encodeOne_ne_nil] at h
      | cons q k =>
        simp only [encode, List.flatMap_cons, List.append_assoc] at h
        obtain ⟨rfl, hrest⟩ := encodeOne_inj h
        rw [List.cons_prefix_cons]
        exact ⟨rfl, ih (by rw [encode, encode, hrest])⟩
  · rintro ⟨rest, rfl⟩
    exact ⟨encode rest, List.flatMap_append.symm⟩

end Localization.Xliff.Entity
