import Localization.Proofs.Json
import Localization.Proofs.Result

/-! Objects: the keys of one that is read are distinct, and one that is written with characters
alone has no surrogates in it. -/

namespace Localization

/-- Text is made of characters exactly if no surrogate stands in it. -/
theorem Text.exists_ofChars_iff {t : Text} :
    (∃ cs, t = .ofChars cs) ↔ ∀ n, CodePoint.surrogate n ∉ t := by
  constructor
  · rintro ⟨cs, rfl⟩ n hn
    obtain ⟨c, -, hc⟩ := List.mem_map.mp hn
    cases hc
  · intro h
    induction t with
    | nil => exact ⟨[], rfl⟩
    | cons p t ih =>
      obtain ⟨cs, rfl⟩ := ih fun n hn => h n (List.mem_cons_of_mem p hn)
      cases p with
      | char c => exact ⟨c :: cs, rfl⟩
      | surrogate n => exact absurd List.mem_cons_self (h n)

theorem Text.mem_join {sep : Text} {ts : List Text} {p : CodePoint} (hsep : p ∉ sep) :
    p ∈ Text.join sep ts ↔ ∃ t ∈ ts, p ∈ t := by
  induction ts with
  | nil => simp [Text.join]
  | cons t ts ih =>
    cases ts with
    | nil => simp [Text.join]
    | cons u ts =>
      rw [Text.join, List.mem_append, List.mem_append, ih]
      · simp [hsep]
      · simp

namespace Json

/-! What is read. -/

def isObject : Json → Bool
  | .object _ => true
  | _ => false

/-- A value that is a map wherever it is an object: its keys are distinct, and its fields are such
values. -/
inductive Distinct : Json → Prop
  | plain {v : Json} (h : v.isObject = false) : Distinct v
  | object {fields : Fields Json} (keys : fields.keys.Nodup) (each : ∀ f ∈ fields, Distinct f.2) :
    Distinct (.object fields)

theorem distinct_object_iff {fields : Fields Json} :
    Distinct (.object fields) ↔ fields.keys.Nodup ∧ ∀ f ∈ fields, Distinct f.2 := by
  constructor
  · intro h
    cases h with
    | plain h => cases h
    | object keys each => exact ⟨keys, each⟩
  · rintro ⟨keys, each⟩
    exact .object keys each

/-- A field that is put into a map leaves a map. -/
theorem Distinct.put {fields : Fields Json} (h : Distinct (.object fields)) (k : Text) {v : Json}
    (hv : Distinct v) : Distinct (.object (fields.put k v)) := by
  obtain ⟨keys, each⟩ := distinct_object_iff.mp h
  refine .object (Fields.nodup_keys_put keys k v) fun f hf => ?_
  rcases Fields.mem_put hf with rfl | hf
  · exact hv
  · exact each f hf

theorem distinct_word? {t rest : Text} {v : Json} (h : word? t = some (v, rest)) : Distinct v := by
  obtain ⟨w, hw, hvalue⟩ := Option.map_eq_some_iff.mp h
  have hwords : ∀ w ∈ words, w.2.isObject = false := by decide
  obtain ⟨rfl, -⟩ := Prod.mk.inj hvalue
  exact .plain (hwords w (List.mem_of_find?_eq_some hw))

theorem distinct_number {t rest : Text} {v : Json} (h : number t = .ok (v, rest)) :
    Distinct v := by
  unfold number at h
  split at h
  extract_lets whole at h
  split at h
  · cases h
  split at h
  split at h
  split at h
  · cases h
    exact .plain rfl
  split at h
  · cases h
  · cases h
    exact .plain rfl

section Fuel

variable {fuel : Nat}
  (hfields : ∀ {nesting : Nat} {done fs : Fields Json} {t rest : Text}, Distinct (.object done) →
    fieldsFrom fuel nesting done t = .ok (fs, rest) → Distinct (.object fs))
include hfields

theorem distinct_value {nesting : Nat} {t rest : Text} {v : Json}
    (h : valueFrom (fuel + 1) nesting t = .ok (v, rest)) : Distinct v := by
  have hnone : Distinct (.object []) := .object List.nodup_nil (by simp)
  rw [valueFrom.eq_def] at h
  dsimp only at h
  split at h
  · obtain ⟨_, -, hvalue⟩ := map_eq_ok_iff.mp h
    cases hvalue
    exact .plain rfl
  · split at h
    · cases h
    split at h
    · cases h
      exact .plain rfl
    · obtain ⟨_, -, hvalue⟩ := map_eq_ok_iff.mp h
      cases hvalue
      exact .plain rfl
  · split at h
    · cases h
    split at h
    · cases h
      exact hnone
    · obtain ⟨⟨_, _⟩, hread, hvalue⟩ := map_eq_ok_iff.mp h
      cases hvalue
      exact hfields hnone hread
  · split at h
    · rename_i hword
      exact distinct_word? (Except.ok.inj h ▸ hword)
    · exact distinct_number h

theorem distinct_fields
    (hvalues : ∀ {nesting : Nat} {t rest : Text} {v : Json},
      valueFrom fuel nesting t = .ok (v, rest) → Distinct v)
    {nesting : Nat} {done fs : Fields Json} {t rest : Text} (hdone : Distinct (.object done))
    (h : fieldsFrom (fuel + 1) nesting done t = .ok (fs, rest)) : Distinct (.object fs) := by
  rw [fieldsFrom.eq_def] at h
  dsimp only at h
  split at h
  · obtain ⟨⟨k, r⟩, -, h⟩ := bind_eq_ok_iff.mp h
    dsimp only at h
    split at h
    · obtain ⟨⟨v, r⟩, hvalue, h⟩ := bind_eq_ok_iff.mp h
      have hput := hdone.put k (hvalues hvalue)
      dsimp only at h
      split at h
      · exact hfields hput h
      · obtain ⟨rfl, -⟩ := Prod.mk.inj (Except.ok.inj h)
        exact hput
      · cases h
    · cases h
  · cases h

end Fuel

/-- Values and the fields of an object are read by each other, with less fuel each time. -/
theorem distinct_read (fuel : Nat) :
    (∀ {nesting : Nat} {t rest : Text} {v : Json},
      valueFrom fuel nesting t = .ok (v, rest) → Distinct v) ∧
    ∀ {nesting : Nat} {done fs : Fields Json} {t rest : Text}, Distinct (.object done) →
      fieldsFrom fuel nesting done t = .ok (fs, rest) → Distinct (.object fs) := by
  induction fuel with
  | zero => exact ⟨fun h => (by cases h), fun _ h => (by cases h)⟩
  | succ fuel ih => exact ⟨distinct_value ih.2, distinct_fields ih.2 ih.1⟩

/-- A value that is read is a map wherever it is an object. -/
theorem distinct_read_eq_ok {nesting : Nat} {t : Text} {v : Json} (h : read t nesting = .ok v) :
    Distinct v := by
  unfold read at h
  replace h := mapError_eq_ok_iff.mp h
  obtain ⟨⟨v, rest⟩, hvalue, h⟩ := bind_eq_ok_iff.mp h
  dsimp only at h
  split at h
  · obtain rfl := Except.ok.inj h
    exact (distinct_read _).1 hvalue
  · cases h

theorem distinct_parse {nesting : Nat} {t : Text} {v : Json} (h : parse t nesting = .ok v) :
    Distinct v := by
  unfold parse at h
  split at h
  · cases h
  · exact distinct_read_eq_ok h

theorem nodup_keys_parse {nesting : Nat} {t : Text} {fs : Fields Json}
    (h : parse t nesting = .ok (.object fs)) : fs.keys.Nodup :=
  (distinct_object_iff.mp (distinct_parse h)).1

/-! What is written: a surrogate stands in it exactly if it stands in what is written. -/

section Surrogates

variable (n : Fin 2048)

theorem surrogate_mem_escaped {p : CodePoint} : .surrogate n ∈ escaped p ↔ p = .surrogate n := by
  have hchars (cs : List Char) : CodePoint.surrogate n ∉ Text.ofChars cs :=
    Text.exists_ofChars_iff.mp ⟨cs, rfl⟩ n
  unfold escaped
  split
  all_goals try simp only [hchars, reduceCtorEq]
  split
  · rename_i hlow
    rw [unitEscape, iff_false_intro (hchars _), false_iff]
    rintro rfl
    rw [CodePoint.toNat] at hlow
    omega
  · rw [List.mem_singleton, eq_comm]

theorem surrogate_mem_quoted {t : Text} : .surrogate n ∈ quoted escaped t ↔ .surrogate n ∈ t := by
  simp [quoted, surrogate_mem_escaped]

theorem surrogate_notMem_newline (indent : Nat) : .surrogate n ∉ newline indent := by
  simp [newline]

theorem surrogate_mem_bracketed {opening closing : Char} {indent : Nat} {items : List Text} :
    .surrogate n ∈ bracketed opening closing indent items ↔ ∃ t ∈ items, .surrogate n ∈ t := by
  have hsep : .surrogate n ∉ CodePoint.char ',' :: newline (indent + 1) := by
    simp [surrogate_notMem_newline]
  unfold bracketed
  split
  · rename_i hnone
    simp [List.isEmpty_iff.mp hnone]
  · simp [surrogate_notMem_newline, Text.mem_join hsep]

theorem renderItems_eq_map (indent : Nat) (vs : List Json) :
    renderItems indent vs = vs.map (renderAt indent) := by
  induction vs with
  | nil => rfl
  | cons v vs ih => rw [renderItems, ih, List.map_cons]

theorem renderFields_eq_map (indent : Nat) (fs : Fields Json) :
    renderFields indent fs = fs.map fun f =>
      quoted escaped f.1 ++ .char ':' :: .char ' ' :: renderAt indent f.2 := by
  induction fs with
  | nil => rfl
  | cons f fs ih => rw [renderFields, ih, List.map_cons]

/-- An object of texts is written with characters alone if there is nothing else in it. -/
theorem surrogate_mem_render_texts {m : Fields Text} :
    .surrogate n ∈ (Json.object (m.map fun (k, v) => (k, .string v))).render ↔
      ∃ e ∈ m, .surrogate n ∈ e.1 ∨ .surrogate n ∈ e.2 := by
  simp [render, renderAt, surrogate_mem_bracketed, renderFields_eq_map, surrogate_mem_quoted,
    scalar]

theorem surrogate_notMem_renderAt {nesting : Nat} {v : Json} (hv : Textual nesting v)
    (indent : Nat) : .surrogate n ∉ renderAt indent v := by
  induction hv generalizing indent with
  | string cs =>
    rw [renderAt, scalar, surrogate_mem_quoted]
    · exact Text.exists_ofChars_iff.mp ⟨cs, rfl⟩ n
    all_goals simp
  | array _ ih =>
    rw [renderAt, surrogate_mem_bracketed, renderItems_eq_map]
    rintro ⟨t, ht, hn⟩
    obtain ⟨v, hv, rfl⟩ := List.mem_map.mp ht
    exact ih v hv _ hn
  | object named _ _ ih =>
    rw [renderAt, surrogate_mem_bracketed, renderFields_eq_map]
    rintro ⟨t, ht, hn⟩
    obtain ⟨f, hf, rfl⟩ := List.mem_map.mp ht
    simp only [List.mem_append, List.mem_cons, reduceCtorEq, false_or, surrogate_mem_quoted] at hn
    rcases hn with hn | hn
    · exact Text.exists_ofChars_iff.mp (named f hf) n hn
    · exact ih f hf _ hn

end Surrogates

/-- A value of texts is written with characters. -/
theorem exists_ofChars_render {nesting : Nat} {v : Json} (hv : Textual nesting v) :
    ∃ cs, v.render = .ofChars cs :=
  Text.exists_ofChars_iff.mpr fun n => surrogate_notMem_renderAt n hv 0

/-- An object of texts that is written with characters alone is made of characters. -/
theorem exists_ofChars_of_render {m : Fields Text} {cs : List Char}
    (h : (Json.object (m.map fun (k, v) => (k, .string v))).render = .ofChars cs) :
    ∀ e ∈ m, (∃ ds, e.1 = Text.ofChars ds) ∧ ∃ ds, e.2 = Text.ofChars ds := by
  have hnone := Text.exists_ofChars_iff.mp ⟨cs, h⟩
  simp only [surrogate_mem_render_texts, not_exists, not_and, not_or] at hnone
  intro e he
  exact ⟨Text.exists_ofChars_iff.mpr fun n => (hnone n e he).1,
    Text.exists_ofChars_iff.mpr fun n => (hnone n e he).2⟩

end Json

end Localization
