import Localization.Bundle
import Localization.Proofs.Fields

/-! The key rule: the key of an entry is that of the message in its value. Merging keeps it, since a
value with comments that is laid over another one replaces both of its fields. -/

namespace Localization

def Message.entry (m : Message) : Text × Json := (m.key, m.value)

namespace Bundle

/-- The two fields of a value with comments have different names. -/
theorem message_ne_comment : Text.ofString "message" ≠ Text.ofString "comment" := by decide

@[simp] theorem texts?_strings (ts : List Text) : texts? (ts.map .string) = some ts := by
  induction ts with
  | nil => rfl
  | cons t ts ih =>
    simp only [texts?, List.map_cons, List.mapM_cons, Json.string?] at ih ⊢
    simp [ih]

/-- A value with a text has a message that is the text. -/
theorem messageOf_of_textOf {v : Json} {t : Text} (h : textOf v = .ok t) :
    messageOf v = .ok (.string t) := by
  rw [textOf] at h
  split at h
  · rename_i hmessage
    rw [hmessage, Except.ok.inj h]
  · cases h
  · cases h

/-- The comments of a value as texts: none if no comment is present, nothing if they are no
texts. -/
def commentTexts? (v : Json) : Option (List Text) :=
  match commentOf v with
  | none => some []
  | some c => if c.isPresent then c.items?.bind texts? else some []

/-- The message that a value holds, with its comments. -/
def message? (v : Json) : Option Message :=
  match textOf v, commentTexts? v with
  | .ok t, some cs => some ⟨t, cs⟩
  | _, _ => none

/-- An entry obeys the key rule: its key is that of the message that its value holds. -/
def Keyed (e : Text × Json) : Prop := ∃ m, message? e.2 = some m ∧ e.1 = m.key

/-- A value as extraction writes it: a text alone, or a text and one or more comments. -/
inductive Extracted : Json → Prop
  | text (t : Text) : Extracted (.string t)
  | annotated (t c : Text) (cs : List Text) :
    Extracted (.object [("message", .string t), ("comment", .array ((c :: cs).map .string))])

@[simp] theorem message?_value (m : Message) : message? m.value = some m := by
  obtain ⟨t, cs⟩ := m
  cases cs with
  | nil => rfl
  | cons c cs =>
    have hcs : texts? (.string c :: cs.map .string) = some (c :: cs) := texts?_strings (c :: cs)
    simp [message?, Message.value, textOf, messageOf, commentTexts?, commentOf, Json.field?,
      Fields.get?, Json.isPresent, Json.items?, hcs, message_ne_comment]

theorem keyed_entry (m : Message) : Keyed m.entry := ⟨m, message?_value m, rfl⟩

theorem extracted_value (m : Message) : Extracted m.value := by
  obtain ⟨t, cs⟩ := m
  cases cs with
  | nil => exact .text t
  | cons c cs => exact .annotated t c cs

/-- The value of a message, laid over the value of any message, replaces it. -/
theorem mergeValue_value (old : Option Message) (m : Message) :
    mergeValue (old.map Message.value) m.value = m.value := by
  obtain ⟨t, cs⟩ := m
  cases cs with
  | nil => simp [Message.value, mergeValue]
  | cons c cs =>
    obtain _ | ⟨s, ds⟩ := old
    · simp [Message.value, mergeValue]
    · cases ds with
      | nil => simp [Message.value, mergeValue]
      | cons d ds => simp [Message.value, mergeValue, mergeFields, Fields.put, message_ne_comment]

/-- Fields that are entries of messages, laid over such fields, give such fields. -/
theorem mergeFields_entries {kept fields : Fields Json} (hk : ∀ e ∈ kept, ∃ m, Message.entry m = e)
    (hf : ∀ e ∈ fields, ∃ m, Message.entry m = e) :
    ∀ e ∈ mergeFields kept fields, ∃ m, Message.entry m = e := by
  induction fields generalizing kept with
  | nil => simpa [mergeFields] using hk
  | cons f fields ih =>
    obtain ⟨m, rfl⟩ := hf f (by simp)
    rw [Message.entry, mergeFields]
    refine ih (fun e he => ?_) fun e he => hf e (List.mem_cons_of_mem _ he)
    have hold : ∃ old : Option Message, Fields.get? m.key kept = old.map Message.value := by
      cases hg : Fields.get? m.key kept with
      | none => exact ⟨none, rfl⟩
      | some v =>
        obtain ⟨n, hn⟩ := hk _ (Fields.mem_of_get? hg)
        exact ⟨some n, by simp [← (Prod.mk.inj hn).2]⟩
    obtain ⟨old, hold⟩ := hold
    rcases Fields.mem_put he with rfl | he
    · exact ⟨m, by rw [hold, mergeValue_value]; rfl⟩
    · exact hk e he

/-- Bundles of entries of messages merge to such a bundle. -/
theorem mergeAll_entries {bundles : List Bundle}
    (h : ∀ b ∈ bundles, ∀ e ∈ b, ∃ m, Message.entry m = e) :
    ∀ e ∈ mergeAll bundles, ∃ m, Message.entry m = e := by
  have run : ∀ kept : Bundle, (∀ e ∈ kept, ∃ m, Message.entry m = e) →
      ∀ e ∈ bundles.foldl mergeFields kept, ∃ m, Message.entry m = e := by
    induction bundles with
    | nil => exact fun kept hk => hk
    | cons b bundles ih =>
      intro kept hk
      exact ih (fun c hc => h c (List.mem_cons_of_mem _ hc)) _
        (mergeFields_entries hk (h b (by simp)))
  exact run [] (by simp)

end Bundle

end Localization
