import Localization.Batch
import Mathlib.Algebra.BigOperators.Group.List.Basic
import Mathlib.Algebra.Ring.Int.Defs
import Mathlib.Data.List.Chain

/-! Batches partition the items: they are numbered, no batch is empty, each one starts where the one
before it stops, and together they hold every item once and in order. Each batch is within the
limits that it can be within. -/

namespace Localization.Batch

/-- Batches with numbers from `number` on, after `start` items, that together hold the items. -/
inductive Tiling (languages : Int) : (number start : Nat) → List Batch → List Item → Prop
  | nil (number start : Nat) : Tiling languages number start [] []
  | cons {number start : Nat} {held rest : List Item} {bs : List Batch} (nonempty : held ≠ [])
    (next : Tiling languages (number + 1) (start + held.length) bs rest) :
    Tiling languages number start
      (⟨number, held, (held.map (itemSize languages)).sum, start⟩ :: bs) (held ++ rest)

/-- Items that fill up a batch, and the batches after it. -/
theorem fill_tiling (l : Limits) (languages : Int) (number start : Nat) (held : List Item)
    (hne : held ≠ []) (rest : List Item) :
    Tiling languages number start
      (fill l languages ⟨number, held, (held.map (itemSize languages)).sum, start⟩ rest)
      (held ++ rest) := by
  induction rest generalizing number start held with
  | nil => exact .cons hne (.nil _ _)
  | cons i rest ih =>
    rw [fill]
    split
    · have hpush := ih number start (held ++ [i]) (by simp)
      simpa [push] using hpush
    · have hnext := ih (number + 1) (start + held.length) [i] (by simp)
      refine .cons hne ?_
      simpa [single, stop] using hnext

/-- The batches of items are numbered from 1 and begin with the first item. -/
theorem group_tiling (l : Limits) (languages : Int) (items : List Item) :
    Tiling languages 1 0 (group l languages items) items := by
  cases items with
  | nil => exact .nil 1 0
  | cons i rest =>
    have hfill := fill_tiling l languages 1 0 [i] (by simp) rest
    simpa [group, single] using hfill

/-- There are batches unless an item is too large. -/
theorem ofItems_eq_ok {l : Limits} (languages : Int) {items : List Item}
    (h : ∀ i ∈ items, (i.text.length : Int) ≤ l.maxItemSize) :
    ofItems l languages items = .ok (group l languages items) := by
  have hnone : tooLarge? l items = none := by
    rw [tooLarge?, List.find?_eq_none]
    intro i hi
    simpa using h i hi
  rw [ofItems, hnone]

/-- There are none if one is. -/
theorem ofItems_eq_error {l : Limits} (languages : Int) {items : List Item}
    (h : ∃ i ∈ items, l.maxItemSize < i.text.length) :
    ∃ item, ofItems l languages items = .error item := by
  obtain ⟨i, hi, hsize⟩ := h
  have hsome : (tooLarge? l items).isSome = true :=
    List.find?_isSome.mpr ⟨i, hi, by simpa using hsize⟩
  obtain ⟨item, hitem⟩ := Option.isSome_iff_exists.mp hsome
  exact ⟨item, by rw [ofItems, hitem]⟩

/-- Cut at the places where batches start, a list as long as that of the items falls into parts, one
for each batch, with as many elements as the batch has items. -/
theorem Tiling.parts {α : Type} {languages : Int} {number start : Nat} {bs : List Batch}
    {items : List Item} (h : Tiling languages number start bs items) (item : α → Item)
    (before all : List α) (hbefore : before.length = start) (hall : all.map item = items) :
    (bs.flatMap fun b => ((before ++ all).drop b.start).take b.items.length) = all ∧
      ∀ b ∈ bs, (((before ++ all).drop b.start).take b.items.length).map item = b.items := by
  induction h generalizing before all with
  | nil => simpa [eq_comm] using hall
  | @cons number start held rest bs _ _ ih =>
    obtain ⟨xs, ys, rfl, hxs, hys⟩ := List.map_eq_append_iff.mp hall
    have hlen : held.length = xs.length := by rw [← hxs, List.length_map]
    have hpart : ((before ++ (xs ++ ys)).drop start).take held.length = xs := by
      rw [← hbefore, List.drop_left, hlen, List.take_left]
    obtain ⟨hflat, hitems⟩ := ih (before ++ xs) ys (by simp [hbefore, hlen]) hys
    rw [List.append_assoc] at hflat hitems
    refine ⟨by rw [List.flatMap_cons, hflat, hpart], ?_⟩
    intro b hb
    rcases List.mem_cons.mp hb with rfl | hb
    · rw [hpart, hxs]
    · exact hitems b hb

/-! What is known of batches by their places. -/

section Tiling

variable {languages : Int} {number start : Nat} {bs : List Batch} {items : List Item}

theorem Tiling.nonempty (h : Tiling languages number start bs items) : ∀ b ∈ bs, b.items ≠ [] := by
  induction h with
  | nil => simp
  | cons hne _ ih => exact List.forall_mem_cons.mpr ⟨hne, ih⟩

theorem Tiling.numbers (h : Tiling languages number start bs items) :
    bs.map Batch.number = List.range' number bs.length := by
  induction h with
  | nil => rfl
  | cons _ _ ih => rw [List.map_cons, ih, List.length_cons, List.range'_succ]

theorem Tiling.flatMap_items (h : Tiling languages number start bs items) :
    bs.flatMap Batch.items = items := by
  induction h with
  | nil => rfl
  | cons _ _ ih => rw [List.flatMap_cons, ih]

theorem Tiling.start_head (h : Tiling languages number start bs items) :
    ∀ b ∈ bs.head?, b.start = start := by
  cases h <;> simp

theorem Tiling.isChain (h : Tiling languages number start bs items) :
    bs.IsChain fun a b => a.stop = b.start := by
  induction h with
  | nil => exact .nil
  | cons _ hnext ih =>
    refine List.isChain_cons.mpr ⟨fun b hb => ?_, ih⟩
    exact (hnext.start_head b hb).symm

theorem Tiling.stop_last (h : Tiling languages number start bs items) :
    ∀ b ∈ bs.getLast?, b.stop = start + items.length := by
  induction h with
  | nil => simp
  | @cons number start held rest bs _ hnext ih =>
    intro b hb
    cases hnext with
    | nil =>
      obtain rfl := Option.some.inj hb
      simp [stop]
    | cons =>
      rw [ih b (by simpa using hb), Nat.add_assoc]
      exact congrArg _ List.length_append.symm

theorem Tiling.sizes (h : Tiling languages number start bs items) :
    ∀ b ∈ bs, b.size = (b.items.map (itemSize languages)).sum := by
  induction h with
  | nil => simp
  | cons _ _ ih => exact List.forall_mem_cons.mpr ⟨rfl, ih⟩

end Tiling

/-- What batches of items are, whatever the limits. -/
structure Partition (languages : Int) (items : List Item) (bs : List Batch) : Prop where
  nonempty : ∀ b ∈ bs, b.items ≠ []
  numbers : bs.map Batch.number = List.range' 1 bs.length
  together : bs.flatMap Batch.items = items
  held : ∀ b ∈ bs, b.items = items.extract b.start b.stop
  first : ∀ b ∈ bs.head?, b.start = 0
  next : bs.IsChain fun a b => a.stop = b.start
  last : ∀ b ∈ bs.getLast?, b.stop = items.length
  sizes : ∀ b ∈ bs, b.size = (b.items.map (itemSize languages)).sum

theorem Tiling.partition {languages : Int} {bs : List Batch} {items : List Item}
    (h : Tiling languages 1 0 bs items) : Partition languages items bs where
  nonempty := h.nonempty
  numbers := h.numbers
  together := h.flatMap_items
  held b hb := by
    have hpart := (h.parts id [] items rfl (List.map_id _)).2 b hb
    rw [List.map_id, List.nil_append] at hpart
    rw [List.extract_eq_take_drop, stop, Nat.add_sub_cancel_left, hpart]
  first := h.start_head
  next := h.isChain
  last b hb := by rw [h.stop_last b hb, Nat.zero_add]
  sizes := h.sizes

/-! Figures. -/

theorem figures_items (bs : List Batch) :
    (figures bs).items = (bs.flatMap Batch.items).length := by
  induction bs with
  | nil => rfl
  | cons b bs ih =>
    rw [List.flatMap_cons, List.length_append, ← ih]
    rfl

theorem figures_size {languages : Int} {bs : List Batch}
    (h : ∀ b ∈ bs, b.size = (b.items.map (itemSize languages)).sum) :
    (figures bs).size = ((bs.flatMap Batch.items).map (itemSize languages)).sum := by
  induction bs with
  | nil => rfl
  | cons b bs ih =>
    obtain ⟨hb, hbs⟩ := List.forall_mem_cons.mp h
    rw [List.flatMap_cons, List.map_append, List.sum_append, ← ih hbs, ← hb]
    rfl

/-! Limits. -/

/-- A batch holds no more items than it may, and is too large only if it has one item. -/
structure Within (l : Limits) (b : Batch) : Prop where
  items : 1 ≤ l.maxItems → (b.items.length : Int) ≤ l.maxItems
  size : 2 ≤ b.items.length → b.size ≤ l.maxRequestSize

theorem Within.single (l : Limits) (languages : Int) (number start : Nat) (i : Item) :
    Within l (single languages number start i) where
  items h := h
  size h := by cases h; contradiction

/-- An item that is admitted leaves a batch within the limits. -/
theorem Within.push {l : Limits} {languages : Int} {b : Batch} {i : Item} (h : Within l b)
    (hadmits : admits l languages b i = true) : Within l (b.push languages i) := by
  simp only [admits, Bool.and_eq_true, decide_eq_true_eq, bne_iff_ne] at hadmits
  refine ⟨fun hl => ?_, fun _ => hadmits.1⟩
  have hitems := h.items hl
  simp only [Batch.push, List.length_append, List.length_singleton]
  omega

theorem fill_within {l : Limits} {languages : Int} {current : Batch} (h : Within l current)
    (rest : List Item) : ∀ b ∈ fill l languages current rest, Within l b := by
  induction rest generalizing current with
  | nil => simpa [fill] using h
  | cons i rest ih =>
    rw [fill]
    split
    · rename_i hadmits
      exact ih (h.push hadmits)
    · exact List.forall_mem_cons.mpr ⟨h, ih (.single ..)⟩

theorem group_within (l : Limits) (languages : Int) (items : List Item) :
    ∀ b ∈ group l languages items, Within l b := by
  cases items with
  | nil => simp [group]
  | cons i rest => exact fill_within (.single ..) rest

/-! Items that are too large. -/

/-- The first item that is too large is the one that is reported. -/
theorem ofItems_eq_error_iff {l : Limits} {languages : Int} {items : List Item} {i : Item} :
    ofItems l languages items = .error i ↔ ∃ before after, items = before ++ i :: after ∧
      (∀ j ∈ before, (j.text.length : Int) ≤ l.maxItemSize) ∧ l.maxItemSize < i.text.length := by
  have hfind : ofItems l languages items = .error i ↔ tooLarge? l items = some i := by
    unfold ofItems
    cases tooLarge? l items <;> simp
  rw [hfind, tooLarge?, List.find?_eq_some_iff_append]
  simp only [decide_eq_true_eq, Bool.not_eq_true', decide_eq_false_iff_not, Int.not_lt]
  constructor
  · rintro ⟨hlarge, before, after, hitems, hbefore⟩
    exact ⟨before, after, hitems, hbefore, hlarge⟩
  · rintro ⟨before, after, hitems, hbefore, hlarge⟩
    exact ⟨hlarge, before, after, hitems, hbefore⟩

theorem exists_error_iff {l : Limits} {languages : Int} {items : List Item} :
    (∃ i, ofItems l languages items = .error i) ↔ ∃ i ∈ items, l.maxItemSize < i.text.length := by
  constructor
  · rintro ⟨i, hi⟩
    obtain ⟨before, after, rfl, -, hlarge⟩ := ofItems_eq_error_iff.mp hi
    exact ⟨i, by simp, hlarge⟩
  · exact ofItems_eq_error languages

/-- Items are refused exactly if one of them is too large, with a message that ends with the first
of these. Otherwise there are batches that partition the items, have the totals of the items, and
are within the limits. -/
theorem ofItems_partition (l : Limits) (languages : Int) (items : List Item) :
    ((∃ i, ofItems l languages items = .error i) ↔
      ∃ i ∈ items, l.maxItemSize < i.text.length) ∧
    (∀ i, ofItems l languages items = .error i ↔ ∃ before after, items = before ++ i :: after ∧
      (∀ j ∈ before, (j.text.length : Int) ≤ l.maxItemSize) ∧ l.maxItemSize < i.text.length ∧
      Text.ofChars i.text <:+ tooLargeMessage i) ∧
    ((∀ i ∈ items, (i.text.length : Int) ≤ l.maxItemSize) →
      ∃ bs, ofItems l languages items = .ok bs ∧ Partition languages items bs ∧
        (figures bs).items = items.length ∧
        (figures bs).size = (items.map (itemSize languages)).sum ∧
        ∀ b ∈ bs, Within l b) := by
  refine ⟨exists_error_iff, fun i => ?_, fun hsmall => ?_⟩
  · rw [ofItems_eq_error_iff]
    have hmessage : Text.ofChars i.text <:+ tooLargeMessage i := List.suffix_append ..
    simp only [hmessage, and_true]
  · have hpartition := (group_tiling l languages items).partition
    refine ⟨_, ofItems_eq_ok languages hsmall, hpartition, ?_, ?_, group_within l languages items⟩
    · rw [figures_items, hpartition.together]
    · rw [figures_size hpartition.sizes, hpartition.together]

/-- Limits that nothing is within leave every item in a batch of its own. -/
theorem ofItems_partition_apart :
    Partition 2 [⟨[], ['a']⟩, ⟨[], ['b', 'c']⟩]
      [⟨1, [⟨[], ['a']⟩], 2, 0⟩, ⟨2, [⟨[], ['b', 'c']⟩], 4, 1⟩] := by
  obtain ⟨bs, hbs, hpartition, -⟩ :=
    (ofItems_partition ⟨2, 0, -1⟩ 2 [⟨[], ['a']⟩, ⟨[], ['b', 'c']⟩]).2.2 (by decide)
  obtain rfl := Except.ok.inj hbs
  exact hpartition

end Localization.Batch
