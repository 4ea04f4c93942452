import Localization.Proofs.Batch
import Localization.Proofs.Result
import Mathlib.Algebra.Order.BigOperators.Group.List
import Mathlib.Algebra.Order.Ring.Int

/-! Limits of requests: which batches are within all of them, and that no way to cut the items into
groups within the limits of a request needs fewer groups than there are batches. -/

namespace Localization.Batch

/-- The size of items in one request for several languages. -/
def total (languages : Int) (items : List Item) : Int := (items.map (itemSize languages)).sum

section Total

variable {languages : Int}

theorem itemSize_nonneg (hlang : 0 ≤ languages) (i : Item) : 0 ≤ itemSize languages i :=
  Int.mul_nonneg (Int.natCast_nonneg _) hlang

@[simp] theorem total_singleton (i : Item) : total languages [i] = itemSize languages i := by
  simp [total]

theorem total_concat (items : List Item) (i : Item) :
    total languages (items ++ [i]) = total languages items + itemSize languages i := by
  simp [total]

/-- Some of the items are no larger than all of them. -/
theorem total_le_of_sublist (hlang : 0 ≤ languages) {part all : List Item} (h : part.Sublist all) :
    total languages part ≤ total languages all := by
  refine (h.map _).sum_le_sum fun n hn => ?_
  obtain ⟨i, -, rfl⟩ := List.mem_map.mp hn
  exact itemSize_nonneg hlang i

end Total

/-! Batches within all limits. -/

/-- Items that a service takes in one request. -/
structure Capped (l : Limits) (languages : Int) (items : List Item) : Prop where
  texts : ∀ i ∈ items, (i.text.length : Int) ≤ l.maxItemSize
  count : (items.length : Int) ≤ l.maxItems
  size : total languages items ≤ l.maxRequestSize

/-- There are batches of items exactly if each of them is small enough. -/
theorem ofItems_eq_ok_iff {l : Limits} {languages : Int} {items : List Item} {bs : List Batch} :
    ofItems l languages items = .ok bs ↔
      (∀ i ∈ items, (i.text.length : Int) ≤ l.maxItemSize) ∧ group l languages items = bs := by
  by_cases hsmall : ∀ i ∈ items, (i.text.length : Int) ≤ l.maxItemSize
  · rw [ofItems_eq_ok languages hsmall, Except.ok.injEq, and_iff_right hsmall]
  · have hlarge := hsmall
    push Not at hlarge
    obtain ⟨i, hi⟩ := ofItems_eq_error languages hlarge
    simp [hi, hsmall]

/-- The size of a batch is that of its items. -/
theorem group_size {l : Limits} {languages : Int} {items : List Item} :
    ∀ b ∈ group l languages items, b.size = total languages b.items :=
  (group_tiling l languages items).sizes

/-- An item stands in a batch exactly if it stands among the items. -/
theorem mem_group_iff {l : Limits} {languages : Int} {items : List Item} {i : Item} :
    (∃ b ∈ group l languages items, i ∈ b.items) ↔ i ∈ items := by
  rw [← List.mem_flatMap, (group_tiling l languages items).flatMap_items]

/-- A batch that is larger than a request may be has one item. -/
theorem group_size_le {l : Limits} {languages : Int} {items : List Item} :
    ∀ b ∈ group l languages items, total languages b.items ≤ l.maxRequestSize ∨
      ∃ i, b.items = [i] ∧ l.maxRequestSize < itemSize languages i := by
  intro b hb
  have hwithin := group_within l languages items b hb
  rw [← group_size b hb]
  match hitems : b.items with
  | [] => exact absurd hitems ((group_tiling l languages items).nonempty b hb)
  | [i] =>
    have hsize := group_size b hb
    rw [hitems, total_singleton] at hsize
    rcases lt_or_ge l.maxRequestSize b.size with hlarge | hsmall
    · exact .inr ⟨i, rfl, hsize ▸ hlarge⟩
    · exact .inl hsmall
  | i :: j :: rest => exact .inl (hwithin.size (by simp [hitems]))

/-- The batches are within all limits exactly if no item alone is too large for a request. -/
theorem group_capped_iff {l : Limits} {languages : Int} {items : List Item}
    (hitems : 1 ≤ l.maxItems) (hlang : 0 ≤ languages)
    (hsmall : ∀ i ∈ items, (i.text.length : Int) ≤ l.maxItemSize) :
    (∀ b ∈ group l languages items, Capped l languages b.items) ↔
      ∀ i ∈ items, itemSize languages i ≤ l.maxRequestSize := by
  constructor
  · intro hcapped i hi
    obtain ⟨b, hb, hib⟩ := mem_group_iff.mpr hi
    calc itemSize languages i = total languages [i] := (total_singleton i).symm
      _ ≤ total languages b.items :=
        total_le_of_sublist hlang (List.singleton_sublist.mpr hib)
      _ ≤ l.maxRequestSize := (hcapped b hb).size
  · intro hfit b hb
    have hmem : ∀ i ∈ b.items, i ∈ items := fun i hi => mem_group_iff.mp ⟨b, hb, hi⟩
    refine ⟨fun i hi => hsmall i (hmem i hi), (group_within l languages items b hb).items hitems, ?_⟩
    rcases group_size_le b hb with hsize | ⟨i, hone, hlarge⟩
    · exact hsize
    · have hi := hfit i (hmem i (by simp [hone]))
      omega

/-- Items are refused, or they come in batches of which each has small texts and not too many of
them, and is larger than a request may be only if it is one item which is that large. So all batches
are within the limits exactly if there is no such item. -/
theorem ofItems_capped_iff {l : Limits} {languages : Int} (hitems : 1 ≤ l.maxItems)
    (hlang : 0 ≤ languages) (items : List Item) :
    (∃ i, ofItems l languages items = .error i) ∨
    ∃ bs, ofItems l languages items = .ok bs ∧
      (∀ b ∈ bs, b.size = total languages b.items ∧
        (∀ i ∈ b.items, (i.text.length : Int) ≤ l.maxItemSize) ∧
        (b.items.length : Int) ≤ l.maxItems ∧
        (b.size ≤ l.maxRequestSize ∨
          ∃ i, b.items = [i] ∧ l.maxRequestSize < itemSize languages i)) ∧
      ((∀ b ∈ bs, Capped l languages b.items) ↔
        ∀ i ∈ items, itemSize languages i ≤ l.maxRequestSize) := by
  by_cases hsmall : ∀ i ∈ items, (i.text.length : Int) ≤ l.maxItemSize
  · refine .inr ⟨_, ofItems_eq_ok languages hsmall, fun b hb => ?_,
      group_capped_iff hitems hlang hsmall⟩
    refine ⟨group_size b hb, fun i hi => ?_, ?_, ?_⟩
    · exact hsmall i (mem_group_iff.mp ⟨b, hb, hi⟩)
    · exact (group_within l languages items b hb).items hitems
    · rw [group_size b hb]
      exact group_size_le b hb
  · push Not at hsmall
    exact .inl (ofItems_eq_error languages hsmall)

/-- A text of three characters, for two languages: the limits allow the text, and no request that it
could be sent with. -/
theorem ofItems_capped_iff_alone :
    let l : Limits := ⟨10, 100, 5⟩
    let i : Item := ⟨[], "aaa".toList⟩
    ofItems l 2 [i] = .ok [⟨1, [i], 6, 0⟩] ∧ ¬ Capped l 2 [i] := by
  intro l i
  have hone : ofItems l 2 [i] = .ok [⟨1, [i], 6, 0⟩] := rfl
  have hlimits : 1 ≤ l.maxItems := by decide
  have hlang : (0 : Int) ≤ 2 := by decide
  rcases ofItems_capped_iff hlimits hlang [i] with ⟨j, hj⟩ | ⟨bs, hbs, -, hiff⟩
  · rw [hone] at hj
    cases hj
  · rw [hone] at hbs
    obtain rfl := Except.ok.inj hbs
    refine ⟨hone, fun hcapped => ?_⟩
    have hfit := hiff.mp (by simpa using hcapped) i (by simp)
    exact absurd hfit (by decide)

/-- Whatever the items, the batches are within all limits exactly if an item that is as large as an
item may be is no larger than a request may be. -/
theorem always_capped_iff {l : Limits} {languages : Int} (hsize : 0 ≤ l.maxItemSize)
    (hitems : 1 ≤ l.maxItems) (hlang : 0 ≤ languages) :
    (∀ items bs, ofItems l languages items = .ok bs → ∀ b ∈ bs, Capped l languages b.items) ↔
      l.maxItemSize * languages ≤ l.maxRequestSize := by
  constructor
  · intro h
    let largest : Item := ⟨[], List.replicate l.maxItemSize.toNat 'a'⟩
    have hlength : (largest.text.length : Int) = l.maxItemSize := by
      simp [largest, Int.toNat_of_nonneg hsize]
    have hsmall : ∀ i ∈ [largest], (i.text.length : Int) ≤ l.maxItemSize := by
      simpa using hlength.le
    have hcapped := h [largest] _ (ofItems_eq_ok languages hsmall)
    have hfit := (group_capped_iff hitems hlang hsmall).mp hcapped largest (by simp)
    rwa [itemSize, hlength] at hfit
  · intro h items bs hbs
    obtain ⟨hsmall, rfl⟩ := ofItems_eq_ok_iff.mp hbs
    refine (group_capped_iff hitems hlang hsmall).mpr fun i hi => ?_
    calc itemSize languages i ≤ l.maxItemSize * languages :=
        Int.mul_le_mul_of_nonneg_right (hsmall i hi) hlang
      _ ≤ l.maxRequestSize := h

/-! Cuts of the items. -/

/-- Items that may come together in a request. One item may always, however large it is. -/
def Fits (l : Limits) (languages : Int) (items : List Item) : Prop :=
  2 ≤ items.length →
    (items.length : Int) ≤ l.maxItems ∧ total languages items ≤ l.maxRequestSize

/-- Groups of consecutive items that may come together. -/
structure Cut (l : Limits) (languages : Int) (items : List Item) (groups : List (List Item)) :
    Prop where
  nonempty : ∀ g ∈ groups, g ≠ []
  together : groups.flatten = items
  fits : ∀ g ∈ groups, Fits l languages g

section Cut

variable {l : Limits} {languages : Int}

/-- Some of the items that may come together may, too. -/
theorem Fits.of_sublist (hlang : 0 ≤ languages) {part all : List Item} (h : Fits l languages all)
    (hpart : part.Sublist all) : Fits l languages part := by
  intro htwo
  have hlength := hpart.length_le
  have htotal := total_le_of_sublist hlang hpart
  obtain ⟨hcount, hsize⟩ := h (by omega)
  exact ⟨by omega, by omega⟩

theorem Cut.nil : Cut l languages [] [] := ⟨by simp, rfl, by simp⟩

theorem Cut.cons {g rest : List Item} {groups : List (List Item)} (hne : g ≠ [])
    (hfits : Fits l languages g) (h : Cut l languages rest groups) :
    Cut l languages (g ++ rest) (g :: groups) where
  nonempty := List.forall_mem_cons.mpr ⟨hne, h.nonempty⟩
  together := by rw [List.flatten_cons, h.together]
  fits := List.forall_mem_cons.mpr ⟨hfits, h.fits⟩

theorem Cut.tail {items g : List Item} {groups : List (List Item)}
    (h : Cut l languages items (g :: groups)) : Cut l languages groups.flatten groups where
  nonempty := (List.forall_mem_cons.mp h.nonempty).2
  together := rfl
  fits := (List.forall_mem_cons.mp h.fits).2

/-- Where items in front are left out, there is a cut into no more groups. -/
theorem Cut.drop (hlang : 0 ≤ languages) {before items : List Item} {groups : List (List Item)}
    (h : Cut l languages (before ++ items) groups) :
    ∃ fewer, Cut l languages items fewer ∧ fewer.length ≤ groups.length := by
  induction groups generalizing before with
  | nil =>
    obtain ⟨-, rfl⟩ := List.append_eq_nil_iff.mp h.together.symm
    exact ⟨[], .nil, le_rfl⟩
  | cons g groups ih =>
    have htogether := h.together
    rw [List.flatten_cons] at htogether
    rcases List.append_eq_append_iff.mp htogether with ⟨kept, rfl, hrest⟩ | ⟨kept, rfl, rfl⟩
    · have hbehind : Cut l languages (kept ++ items) groups := hrest ▸ h.tail
      obtain ⟨fewer, hcut, hlength⟩ := ih hbehind
      exact ⟨fewer, hcut, hlength.trans (Nat.le_succ _)⟩
    · cases kept with
      | nil => exact ⟨groups, h.tail, Nat.le_succ _⟩
      | cons i kept =>
        have hfits : Fits l languages (i :: kept) :=
          (h.fits _ List.mem_cons_self).of_sublist hlang (List.sublist_append_right _ _)
        exact ⟨(i :: kept) :: groups, h.tail.cons (by simp) hfits, le_rfl⟩

/-- Items up to one that a batch does not admit do not fit together. -/
theorem not_fits_of_not_admits (hlang : 0 ≤ languages) {b : Batch} {i : Item} {g : List Item}
    (hne : b.items ≠ []) (hsize : b.size = total languages b.items)
    (hfull : admits l languages b i = false) (hg : (b.items ++ [i]).Sublist g) :
    ¬ Fits l languages g := by
  intro hfits
  have hpos := List.length_pos_iff.mpr hne
  have hlength : (b.items ++ [i]).length = b.items.length + 1 := List.length_append
  obtain ⟨hcount, htotal⟩ := hfits.of_sublist hlang hg (by omega)
  rw [total_concat, ← hsize] at htotal
  simp only [admits, Bool.and_eq_false_iff, decide_eq_false_iff_not, bne_eq_false_iff_eq] at hfull
  rcases hfull with hfull | hfull
  · exact hfull htotal
  · omega

/-- The first group of a cut ends among the items of a batch that does not admit the next one, or
with them: what the groups behind it cut begins no later than this next item. -/
theorem Cut.behind (hlang : 0 ≤ languages) {b : Batch} {i : Item} {rest g : List Item}
    {groups : List (List Item)} (hne : b.items ≠ []) (hsize : b.size = total languages b.items)
    (hfull : admits l languages b i = false)
    (h : Cut l languages (b.items ++ i :: rest) (g :: groups)) :
    ∃ kept, Cut l languages (kept ++ i :: rest) groups := by
  have htogether := h.together
  rw [List.flatten_cons] at htogether
  rcases List.append_eq_append_iff.mp htogether with ⟨kept, -, hrest⟩ | ⟨more, hg, hrest⟩
  · exact ⟨kept, hrest ▸ h.tail⟩
  · cases more with
    | nil => exact ⟨[], hrest ▸ h.tail⟩
    | cons j more =>
      obtain ⟨rfl, -⟩ := List.cons.inj hrest
      have hmore : (b.items ++ [i]).Sublist g := by simp [hg]
      exact absurd (h.fits g List.mem_cons_self)
        (not_fits_of_not_admits hlang hne hsize hfull hmore)

/-- However the items are cut, the first group ends no later than the batch that is being filled.
The groups behind it cut what comes after this batch, so there are no fewer of them than batches. -/
theorem length_fill_le (hlang : 0 ≤ languages) {current : Batch} {rest : List Item}
    {groups : List (List Item)} (hne : current.items ≠ [])
    (hsize : current.size = total languages current.items)
    (h : Cut l languages (current.items ++ rest) groups) :
    (fill l languages current rest).length ≤ groups.length := by
  induction rest generalizing current groups with
  | nil =>
    cases groups with
    | nil => exact absurd (List.append_eq_nil_iff.mp h.together.symm).1 hne
    | cons g groups => simp [fill]
  | cons i rest ih =>
    rw [fill]
    split
    · refine ih (by simp [push]) ?_ (by simpa [push] using h)
      rw [push, total_concat, hsize]
    · rename_i hfull
      cases groups with
      | nil => exact absurd (List.append_eq_nil_iff.mp h.together.symm).1 hne
      | cons g groups =>
        obtain ⟨kept, hbehind⟩ := h.behind hlang hne hsize (by simpa using hfull)
        obtain ⟨fewer, hcut, hlength⟩ := hbehind.drop hlang
        have hnext : (fill l languages (single languages (current.number + 1) current.stop i)
            rest).length ≤ fewer.length :=
          ih (by simp [single]) (by simp [single]) hcut
        rw [List.length_cons, List.length_cons]
        omega

theorem length_group_le (hlang : 0 ≤ languages) {items : List Item} {groups : List (List Item)}
    (h : Cut l languages items groups) : (group l languages items).length ≤ groups.length := by
  cases items with
  | nil => simp [group]
  | cons i rest => exact length_fill_le hlang (by simp [single]) (by simp [single]) h

/-- The batches are a cut of the items. -/
theorem cut_group (hitems : 1 ≤ l.maxItems) (items : List Item) :
    Cut l languages items ((group l languages items).map Batch.items) where
  nonempty := by
    simpa using (group_tiling l languages items).nonempty
  together := by
    rw [← List.flatMap_def, (group_tiling l languages items).flatMap_items]
  fits := by
    intro g hg htwo
    obtain ⟨b, hb, rfl⟩ := List.mem_map.mp hg
    have hwithin := group_within l languages items b hb
    exact ⟨hwithin.items hitems, group_size b hb ▸ hwithin.size htwo⟩

end Cut

/-- The batches cut the items into groups within the limits of a request, and no such cut has fewer
groups. -/
theorem ofItems_fewest {l : Limits} {languages : Int} {items : List Item} {bs : List Batch}
    (hitems : 1 ≤ l.maxItems) (hlang : 0 ≤ languages) (h : ofItems l languages items = .ok bs) :
    Cut l languages items (bs.map Batch.items) ∧
      ∀ groups, Cut l languages items groups → bs.length ≤ groups.length := by
  obtain ⟨-, rfl⟩ := ofItems_eq_ok_iff.mp h
  exact ⟨cut_group hitems items, fun groups hcut => length_group_le hlang hcut⟩

/-- An item that is larger than a request may be, two items that are as many as one may have, and one
more: they cannot be cut into two groups. -/
theorem ofItems_fewest_three :
    let l : Limits := ⟨10, 2, 10⟩
    let items : List Item := ["aaaaaa", "b", "c", "d"].map fun t => ⟨[], t.toList⟩
    ∀ groups, Cut l 2 items groups → 3 ≤ groups.length := by
  intro l items groups hcut
  have hbatches : (ofItems l 2 items).map List.length = .ok 3 := rfl
  obtain ⟨bs, hbs, hlength⟩ := map_eq_ok_iff.mp hbatches
  have hfewest := (ofItems_fewest (by decide) (by decide) hbs).2 groups hcut
  omega

end Localization.Batch
