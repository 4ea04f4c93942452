import Localization.Text.Case
import Localization.Text.Order

/-! The orders of texts are total, so sorting by them leaves every text before those that it comes
no later than. -/

namespace Localization

theorem dictionaryLe_total (as bs : List Nat) :
    (dictionaryLe as bs || dictionaryLe bs as) = true := by
  induction as generalizing bs with
  | nil => rfl
  | cons a as ih =>
    cases bs with
    | nil => rfl
    | cons b bs =>
      have hrest := ih bs
      simp only [dictionaryLe, Bool.or_eq_true, Bool.and_eq_true, decide_eq_true_eq,
        beq_iff_eq] at hrest ⊢
      rcases Nat.lt_trichotomy a b with hlt | rfl | hgt
      · exact .inl (.inl hlt)
      · exact hrest.imp (fun h => .inr ⟨rfl, h⟩) fun h => .inr ⟨rfl, h⟩
      · exact .inr (.inl hgt)

theorem dictionaryLe_trans {as bs cs : List Nat} (hab : dictionaryLe as bs = true)
    (hbc : dictionaryLe bs cs = true) : dictionaryLe as cs = true := by
  induction as generalizing bs cs with
  | nil => rfl
  | cons a as ih =>
    cases bs with
    | nil => cases hab
    | cons b bs =>
      cases cs with
      | nil => cases hbc
      | cons c cs =>
        simp only [dictionaryLe, Bool.or_eq_true, Bool.and_eq_true, decide_eq_true_eq,
          beq_iff_eq] at hab hbc ⊢
        rcases hab with hab | ⟨rfl, hab⟩
        · rcases hbc with hbc | ⟨rfl, -⟩
          · exact .inl (by omega)
          · exact .inl hab
        · rcases hbc with hbc | ⟨rfl, hbc⟩
          · exact .inl hbc
          · exact .inr ⟨rfl, ih hab hbc⟩

theorem dictionaryLe_antisymm {as bs : List Nat} (hab : dictionaryLe as bs = true)
    (hba : dictionaryLe bs as = true) : as = bs := by
  induction as generalizing bs with
  | nil =>
    cases bs with
    | nil => rfl
    | cons b bs => cases hba
  | cons a as ih =>
    cases bs with
    | nil => cases hab
    | cons b bs =>
      simp only [dictionaryLe, Bool.or_eq_true, Bool.and_eq_true, decide_eq_true_eq,
        beq_iff_eq] at hab hba
      rcases hab with hab | ⟨rfl, hab⟩
      · omega
      · rcases hba with hba | ⟨-, hba⟩
        · omega
        · rw [ih hab hba]

theorem CodePoint.toNat_injective {p q : CodePoint} (h : p.toNat = q.toNat) : p = q := by
  have hchar : ∀ (c : Char) (n : Fin 2048), c.toNat ≠ 0xD800 + n.val := by
    intro c n hn
    have hvalid : c.toNat.isValidChar := c.valid
    unfold Nat.isValidChar at hvalid
    omega
  cases p with
  | char c =>
    cases q with
    | char d =>
      have hval : c.toNat = d.toNat := h
      rw [← Char.ofNat_toNat c, ← Char.ofNat_toNat d, hval]
    | surrogate n => exact absurd h (hchar c n)
  | surrogate m =>
    cases q with
    | char d => exact absurd h.symm (hchar d m)
    | surrogate n =>
      have hval : 0xD800 + m.val = 0xD800 + n.val := h
      rw [Fin.ext (by omega : m.val = n.val)]

/-- A code point has one unit, its number, or is above U+FFFF and has two, a high surrogate and a low
one. -/
theorem CodePoint.units16_cases (p : CodePoint) :
    p.toNat < 0x10000 ∧ p.units16 = [p.toNat] ∨ ∃ m n, m < 1024 ∧ n < 1024 ∧
      p.toNat = 0x10000 + m * 1024 + n ∧ p.units16 = [0xD800 + m, 0xDC00 + n] := by
  cases p with
  | surrogate n => exact .inl ⟨show 0xD800 + n.val < 0x10000 by omega, rfl⟩
  | char c =>
    by_cases hc : c.toNat < 0x10000
    · exact .inl ⟨hc, if_pos hc⟩
    · right
      have hvalid : c.toNat.isValidChar := c.valid
      unfold Nat.isValidChar at hvalid
      refine ⟨(c.toNat - 0x10000) / 0x400, (c.toNat - 0x10000) % 0x400, by omega, by omega, ?_,
        if_neg hc⟩
      show c.toNat = _
      omega

/-- A number of a surrogate is that of no character. -/
theorem CodePoint.eq_surrogate {p : CodePoint} {n : Nat} (hn : n < 2048)
    (h : p.toNat = 0xD800 + n) : p = .surrogate ⟨n, hn⟩ :=
  toNat_injective h

namespace Text

/-- Text in which no surrogate pair stands in place of its character. -/
def Joined (t : Text) : Prop :=
  ∀ before (m n : Fin 2048) after, t = before ++ .surrogate m :: .surrogate n :: after →
    m < 1024 → n < 1024

theorem Joined.tail {p : CodePoint} {t : Text} (h : Joined (p :: t)) : Joined t :=
  fun before m n after ht => h (p :: before) m n after (by rw [ht, List.cons_append])

theorem joined_of_not_mem {t : Text} (h : ∀ n, CodePoint.surrogate n ∉ t) : Joined t :=
  fun before m n after ht => absurd (by simp [ht]) (h m)

theorem joined_ofChars (cs : List Char) : Joined (ofChars cs) :=
  joined_of_not_mem fun n => by simp [ofChars]

/-- The two units of a character above U+FFFF are those of no other joined text. -/
theorem Joined.units16_ne {p : CodePoint} {t : Text} (h : Joined (p :: t)) {m n : Nat}
    {us : List Nat} (hm : m < 1024) (hn : n < 1024) (hp : p.units16 = [p.toNat]) :
    units16 (p :: t) ≠ (0xD800 + m) :: (0xDC00 + n) :: us := by
  intro heq
  rw [units16, List.flatMap_cons, hp, List.singleton_append, List.cons.injEq] at heq
  obtain ⟨hfirst, hrest⟩ := heq
  have hhigh := CodePoint.eq_surrogate (by omega) hfirst
  cases t with
  | nil => cases hrest
  | cons q t =>
    rw [List.flatMap_cons] at hrest
    rcases q.units16_cases with ⟨-, hq⟩ | ⟨k, l, hk, hl, -, hq⟩
    · rw [hq] at hrest
      have hlow := CodePoint.eq_surrogate (n := 1024 + n) (by omega)
        ((List.cons.inj hrest).1.trans (by omega))
      have hjoined : 1024 + n < 1024 := h [] _ _ t (by rw [hhigh, hlow]; rfl) hm
      omega
    · rw [hq] at hrest
      have hlow := (List.cons.inj hrest).1
      omega

/-- Joined texts with the same units are the same. -/
theorem Joined.eq_of_units16 {a b : Text} (ha : Joined a) (hb : Joined b)
    (h : a.units16 = b.units16) : a = b := by
  have hne : ∀ (p : CodePoint) (t : Text), units16 (p :: t) ≠ [] := by
    intro p t
    rw [units16, List.flatMap_cons]
    rcases p.units16_cases with ⟨-, hp⟩ | ⟨m, n, -, -, -, hp⟩ <;> simp [hp]
  induction a generalizing b with
  | nil =>
    cases b with
    | nil => rfl
    | cons q b => exact absurd h.symm (hne q b)
  | cons p a ih =>
    cases b with
    | nil => exact absurd h (hne p a)
    | cons q b =>
      have hcons : ∀ (p : CodePoint) (t : Text), units16 (p :: t) = p.units16 ++ units16 t :=
        fun p t => List.flatMap_cons
      rcases p.units16_cases with ⟨-, hp⟩ | ⟨m, n, hm, hn, hpval, hp⟩
      · rcases q.units16_cases with ⟨-, hq⟩ | ⟨k, l, hk, hl, hqval, hq⟩
        · rw [hcons, hcons, hp, hq, List.singleton_append, List.singleton_append,
            List.cons.injEq] at h
          rw [CodePoint.toNat_injective h.1, ih ha.tail hb.tail h.2]
        · exact absurd (h.trans (by rw [hcons, hq]; rfl)) (ha.units16_ne hk hl hp)
      · rcases q.units16_cases with ⟨-, hq⟩ | ⟨k, l, hk, hl, hqval, hq⟩
        · exact absurd (h.symm.trans (by rw [hcons, hp]; rfl)) (hb.units16_ne hm hn hq)
        · rw [hcons, hcons, hp, hq] at h
          simp only [List.cons_append, List.nil_append, List.cons.injEq] at h
          have hpq : p.toNat = q.toNat := by omega
          rw [CodePoint.toNat_injective hpq, ih ha.tail hb.tail h.2.2]

/-- Texts that are told apart by their units, as joined texts are. -/
def Apart (ts : List Text) : Prop := ∀ a ∈ ts, ∀ b ∈ ts, a.units16 = b.units16 → a = b

theorem apart_of_joined {ts : List Text} (h : ∀ t ∈ ts, Joined t) : Apart ts :=
  fun a ha b hb => (h a ha).eq_of_units16 (h b hb)

theorem leByCodePoint_antisymm {a b : Text} (hab : leByCodePoint a b = true)
    (hba : leByCodePoint b a = true) : a = b :=
  List.map_inj_right (fun _ _ => CodePoint.toNat_injective) |>.mp (dictionaryLe_antisymm hab hba)

/-- What names are ordered by: the name without case, then the name with its cases swapped. -/
def nameKey (t : Text) : Text × Text := (fold t, swapCase t)

/-- Names of which none comes before the other have one key. -/
theorem nameKey_eq_of_nameLe {a b : Text} (hab : nameLe a b = true) (hba : nameLe b a = true) :
    nameKey a = nameKey b := by
  unfold nameLe at hab hba
  dsimp only at hab hba
  by_cases h : fold a = fold b
  · rw [if_pos h] at hab
    rw [if_pos h.symm] at hba
    rw [nameKey, nameKey, h, leByCodePoint_antisymm hab hba]
  · rw [if_neg h] at hab
    rw [if_neg (Ne.symm h)] at hba
    exact absurd (leByCodePoint_antisymm hab hba) h

theorem nameLe_total (a b : Text) : (nameLe a b || nameLe b a) = true := by
  unfold nameLe
  dsimp only
  by_cases h : fold a = fold b
  · rw [if_pos h, if_pos h.symm]
    exact dictionaryLe_total _ _
  · rw [if_neg h, if_neg (Ne.symm h)]
    exact dictionaryLe_total _ _

theorem nameLe_trans {a b c : Text} (hab : nameLe a b = true) (hbc : nameLe b c = true) :
    nameLe a c = true := by
  unfold nameLe at hab hbc ⊢
  dsimp only at hab hbc ⊢
  split at hab
  · rename_i hfold
    split at hbc
    · rename_i hfold2
      rw [if_pos (hfold.trans hfold2)]
      exact dictionaryLe_trans hab hbc
    · rename_i hfold2
      rw [if_neg (hfold ▸ hfold2), hfold]
      exact hbc
  · rename_i hfold
    split at hbc
    · rename_i hfold2
      rw [if_neg (hfold2 ▸ hfold), ← hfold2]
      exact hab
    · have hne : fold a ≠ fold c := by
        intro he
        rw [he] at hab
        exact hfold (he.trans (leByCodePoint_antisymm hab hbc))
      rw [if_neg hne]
      exact dictionaryLe_trans hab hbc

/-- Sorting keeps the items, and puts them in the order of their texts. -/
theorem sortBy16_perm {α : Type} (text : α → Text) (xs : List α) : (sortBy16 text xs).Perm xs :=
  List.mergeSort_perm _ _

theorem sortBy16_map {α β : Type} (text : β → Text) (f : α → β) (xs : List α) :
    sortBy16 text (xs.map f) = (sortBy16 (fun a => text (f a)) xs).map f := by
  rw [sortBy16, sortBy16, List.map_mergeSort]
  exact fun _ _ _ _ => rfl

theorem map_sortBy16 {α : Type} (text : α → Text) (xs : List α) :
    (sortBy16 text xs).map text = sortBy16 id (xs.map text) :=
  (sortBy16_map id text xs).symm

theorem sortBy16_pairwise {α : Type} (text : α → Text) (xs : List α) :
    (sortBy16 text xs).Pairwise fun a b => le16 (text a) (text b) = true := by
  refine List.pairwise_mergeSort (fun a b c hab hbc => ?_) (fun a b => ?_) xs
  · exact dictionaryLe_trans hab hbc
  · exact dictionaryLe_total _ _

theorem units16_eq_of_le16 {a b : Text} (hab : le16 a b = true) (hba : le16 b a = true) :
    a.units16 = b.units16 :=
  dictionaryLe_antisymm hab hba

theorem le16_of_units16_eq {a b : Text} (h : a.units16 = b.units16) : le16 a b = true := by
  have hself := dictionaryLe_total b.units16 b.units16
  rw [Bool.or_self] at hself
  rw [le16, h, hself]

/-- Sorting does not depend on the order in which items come, if their texts tell them apart. -/
theorem sortBy16_eq_of_perm {α : Type} {text : α → Text} {xs ys : List α} (h : xs.Perm ys)
    (hxs : ∀ a ∈ xs, ∀ b ∈ xs, (text a).units16 = (text b).units16 → a = b) :
    sortBy16 text xs = sortBy16 text ys := by
  refine List.Perm.eq_of_pairwise (fun a b ha hb hab hba => ?_) (sortBy16_pairwise text xs)
    (sortBy16_pairwise text ys)
    ((sortBy16_perm text xs).trans (h.trans (sortBy16_perm text ys).symm))
  exact hxs a ((sortBy16_perm text xs).mem_iff.mp ha) b
    (h.mem_iff.mpr ((sortBy16_perm text ys).mem_iff.mp hb)) (units16_eq_of_le16 hab hba)

/-- Sorting keeps the order of items whose texts have the same units. -/
theorem filter_sortBy16 {α : Type} (text : α → Text) (xs : List α) (units : List Nat) :
    (sortBy16 text xs).filter (fun a => (text a).units16 = units) =
      xs.filter fun a => (text a).units16 = units := by
  have hsorted : (xs.filter fun a => (text a).units16 = units).Pairwise
      fun a b => le16 (text a) (text b) = true := by
    rw [List.pairwise_filter]
    refine List.pairwise_of_forall fun a b ha hb => ?_
    simp only [decide_eq_true_eq] at ha hb
    exact le16_of_units16_eq (ha.trans hb.symm)
  have hsublist : (xs.filter fun a => (text a).units16 = units).Sublist (sortBy16 text xs) := by
    refine List.sublist_mergeSort (fun a b c hab hbc => ?_) (fun a b => ?_) hsorted
      List.filter_sublist
    · exact dictionaryLe_trans hab hbc
    · exact dictionaryLe_total _ _
  have hkept := hsublist.filter fun a => (text a).units16 = units
  rw [List.filter_filter] at hkept
  simp only [Bool.and_self] at hkept
  exact (hkept.eq_of_length ((sortBy16_perm text xs).filter _).length_eq.symm).symm

end Text

end Localization
