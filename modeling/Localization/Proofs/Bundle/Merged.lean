import Localization.Proofs.Bundle
import Localization.Proofs.Json.Object

/-! What stands at a path of keys after bundles are merged: what stands there in the last bundle that
touches the path, that is, in the last one that says anything about it. -/

namespace Localization

namespace Json

/-- The value at the end of a path of keys. Only objects have values at keys. -/
def at? : (path : List Text) → Json → Option Json
  | [], v => some v
  | k :: path, .object fields => (Fields.get? k fields).bind (at? path)
  | _ :: _, _ => none

/-- A value touches a path if it has a value at its end, or one on the way that is no object. -/
def Touches (path : List Text) (v : Json) : Prop :=
  (∃ u, at? path v = some u) ∨
    ∃ before u, before <+: path ∧ before ≠ path ∧ at? before v = some u ∧ u.isObject = false

/-- An object without its fields, and any other value as it is. -/
def outer : Json → Json
  | .object _ => .object []
  | v => v

@[simp] theorem at?_nil (v : Json) : at? [] v = some v := rfl

@[simp] theorem at?_cons_object (k : Text) (path : List Text) (fields : Fields Json) :
    at? (k :: path) (.object fields) = (Fields.get? k fields).bind (at? path) := rfl

/-- A path is followed one key after the other. -/
theorem at?_cons (k : Text) (path : List Text) (v : Json) :
    at? (k :: path) v = (at? [k] v).bind (at? path) := by
  cases v with
  | object fields => cases h : Fields.get? k fields <;> simp [h]
  | _ => rfl

theorem outer_of_not_object {v : Json} (h : v.isObject = false) : v.outer = v := by
  cases v with
  | object => cases h
  | _ => rfl

theorem map_outer_eq_some_iff {found : Option Json} {v : Json} (hv : v.isObject = false) :
    found.map outer = some v ↔ found = some v := by
  rw [Option.map_eq_some_iff]
  constructor
  · rintro ⟨u, rfl, rfl⟩
    cases u with
    | object => cases hv
    | _ => rfl
  · rintro rfl
    exact ⟨v, rfl, outer_of_not_object hv⟩

theorem map_outer_eq_object_iff {found : Option Json} :
    found.map outer = some (.object []) ↔ ∃ fields, found = some (.object fields) := by
  rw [Option.map_eq_some_iff]
  constructor
  · rintro ⟨u, rfl, hu⟩
    cases u with
    | object fields => exact ⟨fields, rfl⟩
    | _ => cases hu
  · rintro ⟨fields, rfl⟩
    exact ⟨_, rfl, rfl⟩

/-! Touching. -/

theorem touches_nil (v : Json) : Touches [] v := .inl ⟨v, rfl⟩

theorem touches_of_not_object {v : Json} (h : v.isObject = false) (path : List Text) :
    Touches path v := by
  cases path with
  | nil => exact touches_nil v
  | cons k path => exact .inr ⟨[], v, List.nil_prefix, by simp, rfl, h⟩

/-- An object touches a path through the value at its first key. -/
theorem touches_cons_iff {k : Text} {path : List Text} {fields : Fields Json} :
    Touches (k :: path) (.object fields) ↔
      ∃ v, Fields.get? k fields = some v ∧ Touches path v := by
  constructor
  · rintro (⟨u, hu⟩ | ⟨before, u, hbefore, hne, hu, hplain⟩)
    · obtain ⟨v, hv, hu⟩ := Option.bind_eq_some_iff.mp hu
      exact ⟨v, hv, .inl ⟨u, hu⟩⟩
    · cases before with
      | nil =>
        obtain rfl := Option.some.inj hu
        cases hplain
      | cons j before =>
        obtain ⟨rfl, hinner⟩ := List.cons_prefix_cons.mp hbefore
        obtain ⟨v, hv, hu⟩ := Option.bind_eq_some_iff.mp hu
        exact ⟨v, hv, .inr ⟨before, u, hinner, fun h => hne (by rw [h]), hu, hplain⟩⟩
  · rintro ⟨v, hv, ⟨u, hu⟩ | ⟨before, u, hbefore, hne, hu, hplain⟩⟩
    · exact .inl ⟨u, by simp [hv, hu]⟩
    · refine .inr ⟨k :: before, u, List.cons_prefix_cons.mpr ⟨rfl, hbefore⟩, ?_, ?_, hplain⟩
      · simpa using hne
      · simp [hv, hu]

end Json

namespace Bundle

open Json

/-! One value laid over another. -/

theorem mergeValue_of_not_object {v : Json} (h : v.isObject = false) (old : Option Json) :
    mergeValue old v = v := by
  cases v with
  | object => cases h
  | _ => rfl

theorem outer_mergeValue (old : Option Json) (v : Json) : (mergeValue old v).outer = v.outer := by
  cases v with
  | object fields =>
    unfold mergeValue
    split <;> rfl
  | _ => rfl

/-- What is found at a key after fields are laid over others. -/
theorem get?_mergeFields {fields : Fields Json} (h : fields.keys.Nodup) (kept : Fields Json)
    (k : Text) : (mergeFields kept fields).get? k =
      match fields.get? k with
      | some v => some (mergeValue (kept.get? k) v)
      | none => kept.get? k := by
  induction fields generalizing kept with
  | nil => rfl
  | cons f rest ih =>
    obtain ⟨a, v⟩ := f
    rw [Fields.keys_cons, List.nodup_cons] at h
    rw [mergeFields, ih h.2, Fields.get?_put]
    by_cases ha : a = k
    · subst ha
      simp [Fields.get?, Fields.get?_of_not_mem h.1]
    · simp [Fields.get?, ha]

theorem mergeValue_none (v : Json) : mergeValue none v = v := by
  cases v with
  | object => simp [mergeValue]
  | _ => rfl

/-- An object laid over anything has, at the keys of its fields, these laid over what was there, and
at other keys what was there. -/
theorem at?_mergeValue_key {fields : Fields Json} (h : fields.keys.Nodup) (old : Option Json)
    (k : Text) : at? [k] (mergeValue old (.object fields)) =
      match Fields.get? k fields with
      | some v => some (mergeValue (old.bind (at? [k])) v)
      | none => old.bind (at? [k]) := by
  cases old with
  | none => cases hv : Fields.get? k fields <;> simp [mergeValue_none, hv]
  | some old =>
    cases old with
    | object kept =>
      simp only [mergeValue, at?_cons_object, get?_mergeFields h, Option.bind_some]
      cases Fields.get? k fields <;> cases Fields.get? k kept <;> simp
    | _ =>
      simp only [mergeValue, at?_cons_object, Option.bind_some, at?]
      cases Fields.get? k fields <;> simp [mergeValue_none]

/-- Laid over anything, a value decides what stands at a path that it touches. -/
theorem at?_mergeValue_of_touches {v : Json} (hv : Distinct v) {path : List Text}
    (h : Touches path v) (old : Option Json) :
    (at? path (mergeValue old v)).map outer = (at? path v).map outer := by
  induction path generalizing old v with
  | nil => simp [outer_mergeValue]
  | cons k path ih =>
    cases hv with
    | plain hplain => rw [mergeValue_of_not_object hplain]
    | object keys each =>
      obtain ⟨u, hu, htouches⟩ := touches_cons_iff.mp h
      have hmem := Fields.mem_of_get? hu
      rw [at?_cons, at?_mergeValue_key keys, hu, at?_cons_object, hu]
      exact ih (each _ hmem) htouches _

/-- It leaves what stands at any other path. -/
theorem at?_mergeValue_of_not_touches {v : Json} (hv : Distinct v) {path : List Text}
    (h : ¬ Touches path v) (old : Option Json) :
    at? path (mergeValue old v) = old.bind (at? path) := by
  induction path generalizing old v with
  | nil => exact absurd (touches_nil v) h
  | cons k path ih =>
    have hchild : old.bind (at? (k :: path)) = (old.bind (at? [k])).bind (at? path) := by
      rw [Option.bind_assoc, funext (at?_cons k path)]
    cases hv with
    | plain hplain => exact absurd (touches_of_not_object hplain _) h
    | @object fields keys each =>
      rw [at?_cons, at?_mergeValue_key keys, hchild]
      cases hu : Fields.get? k fields with
      | none => rfl
      | some u =>
        have hinner : ¬ Touches path u := fun htouches => h (touches_cons_iff.mpr ⟨u, hu, htouches⟩)
        exact ih (each _ (Fields.mem_of_get? hu)) hinner _

/-! Bundles laid over one another. -/

/-- A bundle that touches a path, behind which no other one does. -/
def LastTouching (path : List Text) (bundles : List Bundle) (b : Bundle) : Prop :=
  ∃ earlier later, bundles = earlier ++ b :: later ∧ Touches path (.object b) ∧
    ∀ c ∈ later, ¬ Touches path (.object c)

theorem lastTouching_concat_iff {path : List Text} {bundles : List Bundle} {b c : Bundle} :
    LastTouching path (bundles ++ [b]) c ↔
      (Touches path (.object b) ∧ c = b) ∨
        (¬ Touches path (.object b) ∧ LastTouching path bundles c) := by
  constructor
  · rintro ⟨earlier, later, hsplit, htouches, hlater⟩
    rcases List.eq_nil_or_concat' later with rfl | ⟨later, d, rfl⟩
    · obtain ⟨-, hlast⟩ := List.append_inj' hsplit rfl
      obtain rfl := List.singleton_inj.mp hlast
      exact .inl ⟨htouches, rfl⟩
    · rw [← List.cons_append, ← List.append_assoc] at hsplit
      obtain ⟨rfl, hlast⟩ := List.append_inj' hsplit rfl
      obtain rfl := List.singleton_inj.mp hlast
      refine .inr ⟨hlater b (by simp), earlier, later, rfl, htouches, fun d hd => ?_⟩
      exact hlater d (List.mem_append_left _ hd)
  · rintro (⟨htouches, rfl⟩ | ⟨hnot, earlier, later, rfl, htouches, hlater⟩)
    · exact ⟨bundles, [], rfl, htouches, by simp⟩
    · refine ⟨earlier, later ++ [b], by simp, htouches, ?_⟩
      simpa [or_imp, forall_and] using ⟨hlater, hnot⟩

theorem mergeAll_concat (bundles : List Bundle) (b : Bundle) :
    mergeAll (bundles ++ [b]) = mergeFields (mergeAll bundles) b := by
  rw [mergeAll, List.foldl_append, ← mergeAll]
  rfl

theorem object_mergeFields (kept fields : Fields Json) :
    Json.object (mergeFields kept fields) = mergeValue (some (.object kept)) (.object fields) := by
  rw [mergeValue]

/-- Up to the fields of an object, what stands at a path after merging stands there in the last
bundle that touches the path. -/
theorem at?_mergeAll {bundles : List Bundle} (h : ∀ b ∈ bundles, Distinct (.object b))
    {path : List Text} (hpath : path ≠ []) (u : Json) :
    (at? path (.object (mergeAll bundles))).map outer = some u ↔
      ∃ b, LastTouching path bundles b ∧ (at? path (.object b)).map outer = some u := by
  induction bundles using List.reverseRecOn with
  | nil =>
    obtain ⟨k, path, rfl⟩ := List.exists_cons_of_ne_nil hpath
    simp [mergeAll, LastTouching]
  | append_singleton bundles b ih =>
    have hb := h b (by simp)
    rw [mergeAll_concat, object_mergeFields]
    by_cases htouches : Touches path (.object b)
    · rw [at?_mergeValue_of_touches hb htouches]
      simp [lastTouching_concat_iff, htouches]
    · rw [at?_mergeValue_of_not_touches hb htouches, Option.bind_some,
        ih fun c hc => h c (List.mem_append_left _ hc)]
      simp [lastTouching_concat_iff, htouches]

/-! The merged bundle as a map. -/

/-- Fields laid over those of a map leave a map if each of them does when laid over a value. -/
theorem distinct_mergeFields {fields : Fields Json}
    (h : ∀ f ∈ fields, ∀ old : Option Json, (∀ o ∈ old, Distinct o) →
      Distinct (mergeValue old f.2))
    {kept : Fields Json} (hkept : Distinct (.object kept)) :
    Distinct (.object (mergeFields kept fields)) := by
  induction fields generalizing kept with
  | nil => exact hkept
  | cons f rest ih =>
    obtain ⟨k, v⟩ := f
    rw [mergeFields]
    refine ih (fun f hf => h f (List.mem_cons_of_mem _ hf)) (hkept.put k ?_)
    refine h (k, v) List.mem_cons_self _ fun o ho => ?_
    exact (distinct_object_iff.mp hkept).2 _ (Fields.mem_of_get? ho)

theorem distinct_mergeValue {v : Json} (hv : Distinct v) {old : Option Json}
    (hold : ∀ o ∈ old, Distinct o) : Distinct (mergeValue old v) := by
  induction hv generalizing old with
  | plain hplain =>
    rw [mergeValue_of_not_object hplain]
    exact .plain hplain
  | object keys each ih =>
    unfold mergeValue
    split
    · exact distinct_mergeFields (fun f hf old hold => ih f hf hold) (hold _ rfl)
    · exact .object keys each

theorem distinct_mergeAll {bundles : List Bundle} (h : ∀ b ∈ bundles, Distinct (.object b)) :
    Distinct (.object (mergeAll bundles)) := by
  induction bundles using List.reverseRecOn with
  | nil => exact .object List.nodup_nil (by simp [mergeAll])
  | append_singleton bundles b ih =>
    rw [mergeAll_concat, object_mergeFields]
    refine distinct_mergeValue (h b (by simp)) fun o ho => ?_
    obtain rfl := Option.mem_some_iff.mp ho
    exact ih fun c hc => h c (List.mem_append_left _ hc)

/-- The keys of fields that are laid over others come last, unless they are there already. -/
theorem keys_mergeFields (kept fields : Fields Json) : (mergeFields kept fields).keys =
    kept.keys ++ (List.removeAll fields.keys kept.keys).eraseDups := by
  induction fields generalizing kept with
  | nil => simp [mergeFields, List.removeAll]
  | cons f rest ih =>
    obtain ⟨k, v⟩ := f
    rw [mergeFields, ih, Fields.keys_put]
    by_cases hk : k ∈ kept.keys
    · simp [hk, List.removeAll]
    · simp [hk, List.removeAll, List.eraseDups_cons, Bool.and_comm, beq_eq_decide]

theorem keys_mergeAll (bundles : List Bundle) :
    (mergeAll bundles).keys = (bundles.flatMap Fields.keys).eraseDups := by
  induction bundles using List.reverseRecOn with
  | nil => rfl
  | append_singleton bundles b ih =>
    rw [mergeAll_concat, keys_mergeFields, ih, List.flatMap_append, List.flatMap_singleton,
      List.eraseDups_append]
    simp [List.removeAll]

/-- Of the bundles that touch a path, the last one alone decides what stands there after merging: a
value that is no object stands there exactly if it does in that bundle, and an object exactly if an
object does. The merged bundle is a map again, with its keys in the order in which they first come. -/
theorem mergeAll_last {bundles : List Bundle} (h : ∀ b ∈ bundles, Distinct (.object b)) :
    (∀ path ≠ [],
      (∀ v : Json, v.isObject = false →
        (at? path (.object (mergeAll bundles)) = some v ↔
          ∃ b, LastTouching path bundles b ∧ at? path (.object b) = some v)) ∧
      ((∃ fields, at? path (.object (mergeAll bundles)) = some (.object fields)) ↔
        ∃ b, LastTouching path bundles b ∧
          ∃ fields, at? path (.object b) = some (.object fields))) ∧
    Distinct (.object (mergeAll bundles)) ∧
    (mergeAll bundles).keys = (bundles.flatMap Fields.keys).eraseDups := by
  refine ⟨fun path hpath => ⟨fun v hv => ?_, ?_⟩, distinct_mergeAll h, keys_mergeAll bundles⟩
  · have hlast := at?_mergeAll h hpath v
    simpa only [map_outer_eq_some_iff hv] using hlast
  · have hlast := at?_mergeAll h hpath (.object [])
    simpa only [map_outer_eq_object_iff] using hlast

/-- A text takes the place of an object, and an object that of the text: what the first object held
is gone. -/
theorem mergeAll_last_replaced :
    let first : Bundle := [("n", .object [("message", .string "m")])]
    let second : Bundle := [("n", .string "t")]
    let third : Bundle := [("n", .object [("comment", .string "c")])]
    let merged := Json.object (mergeAll [first, second, third])
    at? ["n", "comment"] merged = some (.string "c") ∧
      (∃ fields, at? ["n"] merged = some (.object fields)) ∧ at? ["n", "message"] merged = none := by
  intro first second third merged
  have hstring : ∀ t, Distinct (.string t) := fun t => .plain rfl
  have hdistinct : ∀ b ∈ [first, second, third], Distinct (.object b) := by
    simp [first, second, third, distinct_object_iff, hstring]
  have hlast : ∀ path, Touches path (.object third) →
      LastTouching path [first, second, third] third :=
    fun path htouches => ⟨[first, second], [], rfl, htouches, by simp⟩
  have h := (mergeAll_last hdistinct).1
  refine ⟨?_, ?_, rfl⟩
  · exact ((h ["n", "comment"] (by simp)).1 _ rfl).mpr ⟨third, hlast _ (.inl ⟨_, rfl⟩), rfl⟩
  · exact (h ["n"] (by simp)).2.mpr ⟨third, hlast _ (.inl ⟨_, rfl⟩), _, rfl⟩

end Bundle

end Localization
