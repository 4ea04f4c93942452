import Localization.Proofs.Bundle
import Localization.Proofs.Result
import Localization.Proofs.Text
import Localization.Provider.Message

/-! Entries of bundles whose values have texts, and the bundles that come of them if every text is
translated by itself. -/

namespace Localization

/-- The text of a value's message; nothing if it has none. -/
def Bundle.text (v : Json) : Text := (textOf v).toOption.getD []

/-- A value with a message in which no surrogate stands alone. -/
def Bundle.HasText (v : Json) : Prop := ∃ cs, textOf v = .ok (.ofChars cs)

namespace Provider

/-- A bundle in a language, if every text is translated by itself. -/
def translation (f : List Char → Text → List Char) (bundle : Bundle) (language : Text) :
    Fields Text :=
  bundle.map fun e => (e.1, received (f (sent (Bundle.text e.2)) language))

/-! Lists of results. -/

section Lists

variable {ε α β γ : Type}

theorem flatMap_zip {R : α → β → Prop} {xs : List α} {ys : List β} (h : List.Forall₂ R xs ys)
    {f : α × β → List γ} {g : α → List γ} (hfg : ∀ x y, R x y → f (x, y) = g x) :
    (xs.zip ys).flatMap f = xs.flatMap g := by
  induction h with
  | nil => rfl
  | cons hR _ ih => rw [List.zip_cons_cons, List.flatMap_cons, List.flatMap_cons, hfg _ _ hR, ih]

theorem mapIdx_zip {R : α → β → Prop} {xs : List α} {ys : List β} (h : List.Forall₂ R xs ys)
    {f : Nat → α × β → γ} {g : Nat → α → γ} (hfg : ∀ n x y, R x y → f n (x, y) = g n x) :
    (xs.zip ys).mapIdx f = xs.mapIdx g := by
  induction h generalizing f g with
  | nil => rfl
  | cons hR _ ih =>
    rw [List.zip_cons_cons, List.mapIdx_cons, List.mapIdx_cons, hfg _ _ _ hR]
    rw [ih fun n x y hxy => hfg (n + 1) x y hxy]

/-- Among elements with their places, the place picks out the element. -/
theorem filter_mapIdx (g : α → β) (xs : List α) (k n : Nat) (hn : n < xs.length) :
    (xs.mapIdx fun i x => (i + k, g x)).filter (fun t => t.1 == n + k) = [(n + k, g xs[n])] := by
  induction xs generalizing k n with
  | nil => simp at hn
  | cons x xs ih =>
    have hshift : (xs.mapIdx fun i x => (i + 1 + k, g x)) =
        xs.mapIdx fun i x => (i + (k + 1), g x) := by
      congr 1
      funext i x
      rw [Nat.add_assoc, Nat.add_comm 1 k]
    rw [List.mapIdx_cons, hshift]
    cases n with
    | zero =>
      have hrest :
          (xs.mapIdx fun i x => (i + (k + 1), g x)).filter (fun t => t.1 == 0 + k) = [] := by
        rw [List.filter_eq_nil_iff]
        intro t ht
        obtain ⟨i, hi, rfl⟩ := List.mem_mapIdx.mp ht
        simp
        omega
      rw [List.filter_cons_of_pos (by simp), hrest]
      simp
    | succ n =>
      have hfound := ih (k + 1) n (by simpa using hn)
      rw [List.filter_cons_of_neg (by simp)]
      rw [show n + (k + 1) = n + 1 + k by omega] at hfound
      simpa using hfound

theorem untilFault_ok (xs : List α) : untilFault (xs.map (@Except.ok ε _)) = (xs, none) := by
  induction xs with
  | nil => rfl
  | cons x xs ih => rw [List.map_cons, untilFault, ih]

end Lists

theorem plainChars_ofChars (cs : List Char) : plainChars (.ofChars cs) = cs := by
  simp [plainChars, Text.ofChars, Function.comp_def]

/-- The entries of a bundle of values with texts. -/
def entriesOf (b : Bundle) : List Entry := b.map fun e => ⟨e.1, Bundle.text e.2⟩

theorem ofBundle_eq_ok {b : Bundle} (h : ∀ e ∈ b, Bundle.HasText e.2) :
    Entry.ofBundle b = .ok (entriesOf b) := by
  have hmessage : ∀ e ∈ b, Bundle.messageOf e.2 = .ok (.string (Bundle.text e.2)) := by
    intro e he
    obtain ⟨cs, hcs⟩ := h e he
    have htext : Bundle.text e.2 = .ofChars cs := by rw [Bundle.text, hcs]; rfl
    rw [Bundle.messageOf_of_textOf hcs, htext]
  have hvalues : (b.mapM fun e => (Bundle.messageOf e.2).map fun m => (e.1, m)) =
      .ok (b.map fun e => (e.1, Json.string (Bundle.text e.2))) :=
    mapM_eq_ok fun e he => by simp only [hmessage e he, Except.map]
  refine bind_eq_ok_iff.mpr ⟨_, hvalues, ?_⟩
  rw [List.mapM_map]
  exact mapM_eq_ok fun e _ => rfl

theorem isSendable_entriesOf {b : Bundle} (h : ∀ e ∈ b, Bundle.HasText e.2) :
    ∀ e ∈ entriesOf b, e.isSendable = true := by
  intro e he
  obtain ⟨source, hsource, rfl⟩ := List.mem_map.mp he
  obtain ⟨cs, hcs⟩ := h source hsource
  simp [Entry.isSendable, Bundle.text, hcs, Except.toOption]

/-- The translations of the entries of a map are the translation of the map. -/
theorem ofList_entriesOf {b : Bundle} (hkeys : b.keys.Nodup) (f : List Char → Text → List Char)
    (language : Text) :
    Fields.ofList ((entriesOf b).map fun e => (e.key, received (f e.html language))) =
      translation f b language := by
  rw [entriesOf, List.map_map]
  refine Fields.ofList_eq_self ?_
  simpa [Fields.keys, Function.comp_def] using hkeys

end Provider

end Localization
