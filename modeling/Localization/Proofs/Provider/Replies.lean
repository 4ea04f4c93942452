import Localization.Program.Failure
import Localization.Proofs.Azure

/-! What a service replies to the request of a batch, and what the outputs of a reply hold. The number
of outputs is checked for each batch, but not what the outputs hold. -/

namespace Localization.Provider.Azure

variable {languages : List Text}

/-! What the reply to a batch says. -/

section Replies

variable {nesting : Nat} {b : Batch} {outputs : List Json} {r : Reply}

/-- A reply with outputs for a batch, one for each of its items. -/
def Answers (nesting : Nat) (b : Batch) (outputs : List Json) (r : Reply) : Prop :=
  ∃ body v, r = .response 200 body ∧ Json.ofBytes body nesting = .ok v ∧
    v.items? = some outputs ∧ outputs.length = b.items.length

/-- A reply that says that a batch is not translated: there is no answer, it has a status that says
so, or it does not have as many outputs as the batch has items. The body of a status is read too,
and must not be nested too deeply for that. -/
inductive Refuses (nesting : Nat) (b : Batch) : Reply → Prop
  | unreachable (reason : Text) : Refuses nesting b (.unreachable reason)
  | status {n : Nat} {body : List UInt8} (h : n ≠ 200)
    (hdeep : ∀ what, Json.ofBytes body nesting ≠ .error (.content (.deep what))) :
    Refuses nesting b (.response n body)
  | miscounted {body : List UInt8} {v : Json} {outputs : List Json}
    (hbody : Json.ofBytes body nesting = .ok v) (hitems : v.items? = some outputs)
    (hlen : outputs.length ≠ b.items.length) : Refuses nesting b (.response 200 body)

/-- The kinds of failures of this provider while it reads replies. -/
def kinds : List String :=
  ["TranslationError", "JSONDecodeError", "UnicodeDecodeError", "ValueError", "RecursionError",
   "TypeError", "KeyError"]

theorem kind_of_shape (e : ShapeError) :
    (Fault.shape e).kind ∈ kinds ∧ (Fault.shape e).kind ≠ "TranslationError" := by
  cases e with
  | missingField name => simp [Fault.kind, ShapeError.kind, kinds]
  | notText => simp [Fault.kind, ShapeError.kind, kinds]

theorem kind_of_unreadable (f : Json.DataFault) :
    (Fault.unreadable f).kind ∈ kinds ∧ (Fault.unreadable f).kind ≠ "TranslationError" := by
  cases f with
  | encoding => simp [Fault.kind, Json.DataFault.kind, kinds]
  | content c => cases c <;> simp [Fault.kind, Json.DataFault.kind, Json.Complaint.kind, kinds]

theorem outputsOf_eq_ok_iff : outputsOf nesting b r = .ok outputs ↔ Answers nesting b outputs r := by
  constructor
  · intro h
    unfold outputsOf at h
    split at h
    · cases h
    · split at h
      · cases h
      · rename_i status body hstatus
        split at h
        · cases h
        · split at h
          · cases h
          · split at h
            · rename_i v hv _ _ hitems hlen
              obtain rfl := Except.ok.inj h
              exact ⟨body, v, by rw [not_not.mp hstatus], hv, hitems, hlen⟩
            · cases h
  · rintro ⟨body, v, rfl, hbody, hitems, hlen⟩
    simp [outputsOf, hbody, hitems, hlen]

/-- A status says that a request is refused, unless its body is nested too deeply. -/
theorem refusal_cases (nesting status : Nat) (body : List UInt8) :
    ((∀ what, Json.ofBytes body nesting ≠ .error (.content (.deep what))) ∧
      ∃ reason, refusal nesting status body = .refused reason) ∨
    ∃ what, Json.ofBytes body nesting = .error (.content (.deep what)) ∧
      refusal nesting status body = .unreadable (.content (.deep what)) := by
  unfold refusal
  split
  · rename_i hread
    refine .inl ⟨by simp [hread], ?_⟩
    split <;> exact ⟨_, rfl⟩
  · rename_i what hread
    exact .inr ⟨what, hread, rfl⟩
  · rename_i hshallow hread
    refine .inl ⟨fun what hdeep => ?_, _, rfl⟩
    rw [hread] at hdeep
    exact hshallow what (Except.error.inj hdeep)

theorem outputsOf_refused (h : Refuses nesting b r) :
    ∃ f, outputsOf nesting b r = .error f ∧ f.kind = "TranslationError" := by
  cases h with
  | unreachable reason => exact ⟨_, rfl, rfl⟩
  | @status n body h hdeep =>
    rcases refusal_cases nesting n body with ⟨-, reason, hreason⟩ | ⟨what, hread, -⟩
    · exact ⟨.refused reason, by rw [outputsOf, if_pos h, hreason], rfl⟩
    · exact absurd hread (hdeep what)
  | miscounted hbody hitems hlen =>
    exact ⟨.miscounted _ _ _, by simp only [outputsOf, hbody, hitems, hlen]; rfl, rfl⟩

theorem outputsOf_error {f : Fault} (h : outputsOf nesting b r = .error f) :
    f.kind ∈ kinds ∧ (f.kind = "TranslationError" → Refuses nesting b r) := by
  unfold outputsOf at h
  split at h
  · obtain rfl := Except.error.inj h
    exact ⟨by simp [Fault.kind, kinds], fun _ => .unreachable _⟩
  · rename_i status body
    split at h
    · rename_i hstatus
      rcases refusal_cases nesting status body with ⟨hshallow, reason, hreason⟩ | ⟨what, -, hwhat⟩
      · rw [hreason] at h
        obtain rfl := Except.error.inj h
        exact ⟨by simp [Fault.kind, kinds], fun _ => .status hstatus hshallow⟩
      · rw [hwhat] at h
        obtain rfl := Except.error.inj h
        exact ⟨(kind_of_unreadable _).1, fun hkind => absurd hkind (kind_of_unreadable _).2⟩
    · rename_i hstatus
      split at h
      · obtain rfl := Except.error.inj h
        exact ⟨(kind_of_unreadable _).1, fun hkind => absurd hkind (kind_of_unreadable _).2⟩
      · split at h
        · obtain rfl := Except.error.inj h
          exact ⟨(kind_of_shape _).1, fun hkind => absurd hkind (kind_of_shape _).2⟩
        · split at h
          · cases h
          · rename_i v hv _ _ hitems hlen
            obtain rfl := Except.error.inj h
            obtain rfl := not_not.mp hstatus
            exact ⟨by simp [Fault.kind, kinds], fun _ => .miscounted hv hitems hlen⟩

end Replies

/-! What an output holds. -/

section Outputs

variable {convert : Converter} {e : Entry} {output : Json} {ts : List Text}

/-- An output with a translation in every language that the converter takes. -/
def Complete (convert : Converter) (languages : List Text) (output : Json) : Prop :=
  ∃ targets, output.field? "translations" = some (.array targets) ∧
    languages.length ≤ targets.length ∧
    ∀ target ∈ targets.take languages.length, ∃ html, target.field? "text" = some (.string html) ∧
      ∃ t, convert html = .ok t

/-- A fault of an output: it has the wrong shape, or the converter does not take what it holds. -/
def IsOfOutput (convert : Converter) (f : Fault) : Prop :=
  (∃ e, f = .shape e) ∨ ∃ html r, convert html = .error r ∧ f = .rejected r

theorem IsOfOutput.kind_ne {f : Fault} (h : IsOfOutput convert f) :
    f.kind ≠ "TranslationError" := by
  rcases h with ⟨e, rfl⟩ | ⟨-, r, -, rfl⟩
  · exact (kind_of_shape e).2
  · exact r.foreign

theorem IsOfOutput.cases {f : Fault} (h : IsOfOutput convert f) :
    f.kind ∈ kinds ∨ ∃ html r, convert html = .error r ∧ f = .rejected r := by
  rcases h with ⟨e, rfl⟩ | hrejected
  · exact .inl (kind_of_shape e).1
  · exact .inr hrejected

/-- The texts that an output holds, in as many languages as it has translations. -/
def texts (convert : Converter) (languages : List Text) (output : Json) :
    Except Fault (List Text) := do
  let found ← (listed output).mapError .shape
  (found.take languages.length).mapM (textOf convert)

theorem field?_of_requiredField {name : String} {v w : Json} (h : requiredField name v = .ok w) :
    v.field? name = some w := by
  unfold requiredField at h
  split at h
  · rename_i hfield
    rw [hfield, Except.ok.inj h]
  · cases h
  · cases h

theorem textOf_isOk_iff {target : Json} :
    (∃ t, textOf convert target = .ok t) ↔
      ∃ html, target.field? "text" = some (.string html) ∧ ∃ t, convert html = .ok t := by
  constructor
  · rintro ⟨t, ht⟩
    obtain ⟨v, hv, hread⟩ := bind_eq_ok_iff.mp ht
    have hfield := field?_of_requiredField (mapError_eq_ok_iff.mp hv)
    cases v with
    | string html => exact ⟨html, hfield, t, mapError_eq_ok_iff.mp hread⟩
    | _ => cases hread
  · rintro ⟨html, hfield, t, ht⟩
    exact ⟨t, by simp [textOf, requiredField, hfield, bind, Except.bind, ht, Except.mapError]⟩

theorem isOfOutput_of_textOf {target : Json} {f : Fault} (h : textOf convert target = .error f) :
    IsOfOutput convert f := by
  unfold textOf at h
  cases hfield : requiredField "text" target with
  | error e =>
    rw [hfield] at h
    exact .inl ⟨e, (Except.error.inj h).symm⟩
  | ok v =>
    rw [hfield] at h
    cases v with
    | string html =>
      obtain ⟨r, hr, rfl⟩ := mapError_eq_error_iff.mp h
      exact .inr ⟨html, r, hr, rfl⟩
    | _ => exact .inl ⟨_, (Except.error.inj h).symm⟩

theorem isOfOutput_of_translated {f : Fault}
    (h : .error f ∈ translated convert languages e output) : IsOfOutput convert f := by
  unfold translated at h
  split at h
  · rename_i fault _
    exact .inl ⟨fault, Except.error.inj (List.mem_singleton.mp h)⟩
  · obtain ⟨n, hn, hf⟩ := List.mem_mapIdx.mp h
    exact isOfOutput_of_textOf (map_eq_error_iff.mp hf)

theorem listed_eq_ok {targets : List Json}
    (h : output.field? "translations" = some (.array targets)) : listed output = .ok targets := by
  simp [listed, requiredField, h, bind, Except.bind]

/-- Translations of which one has a text are those of an array. -/
theorem field?_of_listed {targets : List Json} (h : listed output = .ok targets) {target : Json}
    (htarget : target ∈ targets) {t : Text} (ht : textOf convert target = .ok t) :
    output.field? "translations" = some (.array targets) := by
  obtain ⟨v, hv, hlisted⟩ := bind_eq_ok_iff.mp h
  rw [field?_of_requiredField hv]
  cases v with
  | array xs => rw [Except.ok.inj hlisted]
  | string s =>
    cases s with
    | nil =>
      obtain rfl := Except.ok.inj hlisted
      cases htarget
    | cons p s =>
      obtain rfl := Except.ok.inj hlisted
      obtain rfl := List.mem_singleton.mp htarget
      cases ht
  | _ => cases hlisted

theorem complete_iff (hlanguages : languages ≠ []) (h : texts convert languages output = .ok ts) :
    Complete convert languages output ↔ languages.length ≤ ts.length := by
  obtain ⟨found, hfound, hread⟩ := bind_eq_ok_iff.mp h
  have hfound := mapError_eq_ok_iff.mp hfound
  have hread := mapM_eq_ok_iff.mp hread
  have hlen : (found.take languages.length).length = ts.length := hread.length_eq
  rw [List.length_take] at hlen
  have hpos := List.length_pos_iff.mpr hlanguages
  constructor
  · rintro ⟨targets, htargets, hcount, -⟩
    obtain rfl : targets = found := Except.ok.inj ((listed_eq_ok htargets).symm.trans hfound)
    omega
  · intro hcount
    have htexts := exists_of_forall₂ hread
    refine ⟨found, ?_, by omega, fun target htarget => ?_⟩
    · obtain ⟨target, htarget⟩ : ∃ target, target ∈ found.take languages.length := by
        apply List.exists_mem_of_length_pos
        rw [List.length_take]
        omega
      obtain ⟨t, -, ht⟩ := htexts target htarget
      exact field?_of_listed hfound (List.mem_of_mem_take htarget) ht
    · obtain ⟨t, -, ht⟩ := htexts target htarget
      exact textOf_isOk_iff.mp ⟨t, ht⟩

theorem texts_of_complete (h : Complete convert languages output) :
    ∃ ts, texts convert languages output = .ok ts := by
  obtain ⟨targets, htargets, -, htexts⟩ := h
  obtain ⟨ts, hts, -⟩ := mapM_forall₂ (R := fun _ _ => True) (g := textOf convert) fun target htarget => by
    obtain ⟨t, ht⟩ := textOf_isOk_iff.mpr (htexts target htarget)
    exact ⟨t, ht, trivial⟩
  exact ⟨ts, bind_eq_ok_iff.mpr
    ⟨targets, mapError_eq_ok_iff.mpr (listed_eq_ok htargets), hts⟩⟩

/-- The texts of an entry with the places of their languages. -/
def told (languages : List Text) (e : Entry) (ts : List Text) : List (Nat × Translated) :=
  (languages.zip ts).mapIdx fun n z => (n, ⟨e, z.1, z.2⟩)

theorem translated_of_texts (h : texts convert languages output = .ok ts) :
    translated convert languages e output = (told languages e ts).map .ok := by
  obtain ⟨found, hfound, hread⟩ := bind_eq_ok_iff.mp h
  have hfound := mapError_eq_ok_iff.mp hfound
  have hread := mapM_eq_ok_iff.mp hread
  have hlen := hread.length_eq
  rw [List.length_take] at hlen
  simp only [translated, hfound, told]
  refine List.ext_getElem (by simp; omega) fun n hn hn' => ?_
  simp only [List.length_mapIdx, List.length_zip] at hn
  have htext := hread.get (i := n) (by rw [List.length_take]; omega) (by omega)
  simp only [List.get_eq_getElem, List.getElem_take] at htext
  simp only [List.getElem_mapIdx, List.getElem_zip, List.getElem_map, htext, Except.map]

/-- Texts that cannot be read leave a fault among the messages. -/
theorem fault_of_texts {f : Fault} (h : texts convert languages output = .error f) :
    ∃ f', .error f' ∈ translated convert languages e output := by
  cases hfound : listed output with
  | error f' => exact ⟨.shape f', by simp [translated, hfound]⟩
  | ok found =>
    have hread : (found.take languages.length).mapM (textOf convert) = .error f := by
      simpa [texts, hfound, bind, Except.bind, Except.mapError] using h
    obtain ⟨before, target, after, hsplit, htarget, -⟩ := mapM_eq_error hread
    have hlen := congrArg List.length hsplit
    rw [List.length_take, List.length_append, List.length_cons] at hlen
    have hget : found[before.length]? = some target := by
      rw [← List.getElem?_take_of_lt (show before.length < languages.length by omega), hsplit]
      simp
    obtain ⟨hlt, hget⟩ := List.getElem?_eq_some_iff.mp hget
    refine ⟨f, ?_⟩
    simp only [translated, hfound, List.mem_mapIdx]
    refine ⟨before.length, by simp; omega, ?_⟩
    simp [hget, htarget, Except.map]

end Outputs

end Localization.Provider.Azure
