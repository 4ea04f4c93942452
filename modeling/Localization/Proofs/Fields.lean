import Localization.Json
import Mathlib.Data.List.Induction

/-! Maps with distinct keys: what a value that is put leaves in place, and lists of entries that are
maps already. -/

namespace Localization

theorem nodup_eraseDups {α : Type} [BEq α] [LawfulBEq α] : (as : List α) → as.eraseDups.Nodup
  | [] => List.nodup_nil
  | a :: as => by
    have hlength : (as.filter fun b => !b == a).length ≤ as.length := List.length_filter_le _ as
    have hnew : a ∉ (as.filter fun b => !b == a).eraseDups := by simp [List.mem_eraseDups]
    rw [List.eraseDups_cons]
    exact List.nodup_cons.mpr ⟨hnew, nodup_eraseDups _⟩
termination_by as => as.length

namespace Fields

variable {β : Type}

@[simp] theorem keys_nil : keys ([] : Fields β) = [] := rfl

@[simp] theorem keys_cons (e : Text × β) (m : Fields β) : keys (e :: m) = e.1 :: keys m := rfl

/-- An entry after a value is put is the new one or was there before. -/
theorem mem_put {k : Text} {v : β} {m : Fields β} {e : Text × β} (h : e ∈ m.put k v) :
    e = (k, v) ∨ e ∈ m := by
  induction m with
  | nil => exact .inl (by simpa [put] using h)
  | cons f m ih =>
    obtain ⟨a, b⟩ := f
    by_cases ha : a = k
    · simp only [put, ha, if_true, List.mem_cons] at h
      rcases h with h | h
      · exact .inl h
      · exact .inr (List.mem_cons_of_mem _ h)
    · simp only [put, ha, if_false, List.mem_cons] at h
      rcases h with h | h
      · exact .inr (by simp [h])
      · exact (ih h).imp id (List.mem_cons_of_mem _)

/-- What is found at a key is an entry. -/
theorem mem_of_get? {k : Text} {v : β} {m : Fields β} (h : m.get? k = some v) : (k, v) ∈ m := by
  induction m with
  | nil => simp at h
  | cons f m ih =>
    obtain ⟨a, b⟩ := f
    by_cases ha : a = k
    · simp only [get?, ha, if_true, Option.some.injEq] at h
      simp [ha, h]
    · simp only [get?, ha, if_false] at h
      exact List.mem_cons_of_mem _ (ih h)

/-- Nothing is found at a key that is not there. -/
theorem get?_of_not_mem {k : Text} {m : Fields β} (h : k ∉ m.keys) : m.get? k = none := by
  rw [Option.eq_none_iff_forall_ne_some]
  intro v hv
  have hmem : k ∈ m.keys := List.mem_map_of_mem (f := Prod.fst) (mem_of_get? hv)
  exact h hmem

/-- A value put at a new key comes last. -/
theorem put_new {k : Text} (v : β) {m : Fields β} (h : k ∉ m.keys) : m.put k v = m ++ [(k, v)] := by
  induction m with
  | nil => rfl
  | cons f m ih =>
    obtain ⟨a, b⟩ := f
    simp only [keys_cons, List.mem_cons, not_or] at h
    simp [put, Ne.symm h.1, ih h.2]

/-- Entries with distinct keys, put one after the other behind a map without these keys. -/
theorem foldl_put {m entries : Fields β} (h : (keys (m ++ entries)).Nodup) :
    entries.foldl (fun m e => m.put e.1 e.2) m = m ++ entries := by
  induction entries generalizing m with
  | nil => simp
  | cons e entries ih =>
    have hnew : e.1 ∉ m.keys := by
      simp only [keys, List.map_append, List.map_cons, List.nodup_append, List.mem_cons] at h
      exact fun hm => h.2.2 _ hm _ (.inl rfl) rfl
    rw [List.foldl_cons, put_new e.2 hnew, ih (by simpa [keys] using h)]
    simp

/-- What is found at a key is its only value. -/
theorem get?_of_mem {k : Text} {v : β} {m : Fields β} (hkeys : m.keys.Nodup) (h : (k, v) ∈ m) :
    m.get? k = some v := by
  induction m with
  | nil => simp at h
  | cons f m ih =>
    obtain ⟨a, b⟩ := f
    rw [keys_cons, List.nodup_cons] at hkeys
    rcases List.mem_cons.mp h with heq | h
    · obtain ⟨rfl, rfl⟩ := Prod.mk.inj heq
      simp [get?]
    · have hmem : k ∈ keys m := List.mem_map_of_mem (f := Prod.fst) h
      have hk : a ≠ k := fun ha => hkeys.1 (ha ▸ hmem)
      rw [get?, if_neg hk, ih hkeys.2 h]

theorem ofList_concat (entries : Fields β) (e : Text × β) :
    ofList (entries ++ [e]) = (ofList entries).put e.1 e.2 := by
  rw [ofList, List.foldl_append, ← ofList]
  rfl

theorem map_put {γ : Type} (f : β → γ) (k : Text) (v : β) (m : Fields β) :
    (m.put k v).map (fun e => (e.1, f e.2)) = put k (f v) (m.map fun e => (e.1, f e.2)) := by
  induction m with
  | nil => rfl
  | cons e m ih =>
    obtain ⟨a, b⟩ := e
    by_cases ha : a = k
    · simp [put, ha]
    · simp [put, ha, ih]

/-- The keys of a map that is made of entries come in the order of their first entries. -/
theorem keys_ofList (entries : Fields β) : (ofList entries).keys = (keys entries).eraseDups := by
  induction entries using List.reverseRecOn with
  | nil => rfl
  | append_singleton entries e ih =>
    have hkeys : keys (entries ++ [e]) = keys entries ++ [e.1] := List.map_append
    rw [ofList_concat, keys_put, ih, hkeys, List.eraseDups_append]
    by_cases h : e.1 ∈ keys entries
    · simp [h, List.removeAll]
    · simp [h, List.removeAll, List.eraseDups_cons]

/-- The value of a key, in a map that is made of entries, is that of its last entry. -/
theorem get?_ofList (entries : Fields β) (k : Text) :
    (ofList entries).get? k = (entries.reverse.find? fun e => e.1 = k).map (·.2) := by
  induction entries using List.reverseRecOn with
  | nil => rfl
  | append_singleton entries e ih =>
    rw [ofList_concat, get?_put, ih, List.reverse_concat, List.find?_cons]
    by_cases h : e.1 = k
    · simp [h]
    · simp [h]

theorem nodup_keys_put {m : Fields β} (h : m.keys.Nodup) (k : Text) (v : β) :
    (m.put k v).keys.Nodup := by
  rw [keys_put]
  split
  · exact h
  · rename_i hnew
    exact List.nodup_append.mpr ⟨h, by simp, fun a ha b hb hab => hnew (by simp_all)⟩

theorem nodup_keys_ofList (entries : Fields β) : (ofList entries).keys.Nodup := by
  induction entries using List.reverseRecOn with
  | nil => exact List.nodup_nil
  | append_singleton entries e ih =>
    rw [ofList_concat]
    exact nodup_keys_put ih e.1 e.2

theorem ofList_eq_self {entries : Fields β} (h : entries.keys.Nodup) :
    ofList entries = entries := by
  rw [ofList, foldl_put (by simpa using h), List.nil_append]

theorem ofList_eq_nil_iff {entries : List (Text × β)} : ofList entries = [] ↔ entries = [] := by
  constructor
  · intro h
    have hkeys := keys_ofList entries
    rw [h, keys_nil] at hkeys
    rw [List.eq_nil_iff_forall_not_mem]
    intro e he
    have hmem : e.1 ∈ (keys entries).eraseDups := List.mem_eraseDups.mpr (List.mem_map_of_mem he)
    simp [← hkeys] at hmem
  · rintro rfl
    rfl

/-- An entry behind which no other one has its key. -/
def IsLast (entries : List (Text × β)) (e : Text × β) : Prop :=
  ∃ earlier later, entries = earlier ++ e :: later ∧ ∀ f ∈ later, f.1 ≠ e.1

theorem mem_ofList_iff {entries : List (Text × β)} {e : Text × β} :
    e ∈ ofList entries ↔ IsLast entries e := by
  have hget : e ∈ ofList entries ↔ (ofList entries).get? e.1 = some e.2 :=
    ⟨get?_of_mem (nodup_keys_ofList entries), mem_of_get?⟩
  rw [hget, get?_ofList]
  constructor
  · intro h
    obtain ⟨f, hf, hvalue⟩ := Option.map_eq_some_iff.mp h
    obtain ⟨hkey, later, earlier, hsplit, hlater⟩ := List.find?_eq_some_iff_append.mp hf
    obtain rfl : f = e := Prod.ext (by simpa using hkey) hvalue
    refine ⟨earlier.reverse, later.reverse, ?_, fun g hg => ?_⟩
    · rw [← List.reverse_reverse entries, hsplit]
      simp
    · simpa using hlater g (List.mem_reverse.mp hg)
  · rintro ⟨earlier, later, rfl, hlater⟩
    have hnone : later.reverse.find? (fun f => f.1 = e.1) = none := by
      rw [List.find?_eq_none]
      intro f hf
      simpa using hlater f (List.mem_reverse.mp hf)
    simp [List.find?_append, hnone]

/-- Where keys are distinct, every entry is the last one with its key. -/
theorem IsLast.of_nodup {entries : List (Text × β)} (h : (keys entries).Nodup) {e : Text × β}
    (he : e ∈ entries) : IsLast entries e := by
  rw [← mem_ofList_iff, ofList_eq_self h]
  exact he

end Fields

end Localization
