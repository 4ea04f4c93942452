import Localization.Proofs.Bundle
import Localization.Script.Harvest

/-! The bundle of scripts holds entries of messages: every call gives one, a script collects them in
a bundle, and merging the bundles of scripts keeps them. -/

namespace Localization.Script

/-- Messages put into a bundle of entries of messages leave such a bundle. -/
theorem collect_entries {b : Bundle} {ms : List Message}
    (hb : ∀ e ∈ b, ∃ m, Message.entry m = e) :
    ∀ e ∈ (collect b ms).1, ∃ m, Message.entry m = e := by
  induction ms generalizing b with
  | nil => simpa [collect] using hb
  | cons m ms ih =>
    simp only [collect]
    refine ih fun e he => ?_
    rcases Fields.mem_put he with rfl | he
    · exact ⟨m, rfl⟩
    · exact hb e he

theorem analyzeTree_entries (o : Options) (d : Dialect) (root : Tree) :
    ∀ e ∈ (analyzeTree o d root).bundle, ∃ m, Message.entry m = e := by
  unfold analyzeTree
  dsimp only
  split
  · simp
  · exact collect_entries (by simp)

theorem analyze_entries {o : Options} {s : Source} {a : Analysis} (h : analyze o s = .ok a) :
    ∀ e ∈ a.bundle, ∃ m, Message.entry m = e := by
  unfold analyze at h
  cases hd : dialectOf s.suffix with
  | error e => rw [hd] at h; cases h
  | ok d =>
    rw [hd] at h
    dsimp [bind, Except.bind, pure, Except.pure] at h
    split at h
    · cases h; simp
    · cases h; exact analyzeTree_entries o d _

/-- An analysis that has a bundle has the one that was collected. -/
theorem outcome_eq_ok {a : Analysis} {b : Bundle} (h : a.outcome = .ok b) : a.bundle = b := by
  unfold Analysis.outcome at h
  split at h
  · exact Except.ok.inj h
  · cases h

/-- A harvest keeps the bundles of the scripts read so far, and merges them in the end. -/
theorem harvestFrom_entries {o : Options} {scripts : List Source} {found : Harvest} {b : Bundle}
    (hfound : ∀ c ∈ found.bundles, ∀ e ∈ c, ∃ m, Message.entry m = e)
    (h : (harvestFrom o found scripts).1 = .ok b) : ∀ e ∈ b, ∃ m, Message.entry m = e := by
  induction scripts generalizing found with
  | nil =>
    cases h
    exact Bundle.mergeAll_entries fun c hc => hfound c (List.mem_reverse.mp hc)
  | cons s rest ih =>
    simp only [harvestFrom] at h
    split at h
    · cases h
    · rename_i a ha
      split at h
      · cases h
      · rename_i c hc
        refine ih (fun d hd => ?_) h
        rcases List.mem_cons.mp hd with rfl | hd
        · exact outcome_eq_ok hc ▸ analyze_entries ha
        · exact hfound d hd

/-- Every entry of the bundle of scripts obeys the key rule, and its value is a text, or a text with
one or more comments. -/
theorem harvest_keyed {o : Options} {scripts : List Source} {b : Bundle}
    (h : (harvest o scripts).1 = .ok b) : ∀ e ∈ b, Bundle.Keyed e ∧ Bundle.Extracted e.2 := by
  intro e he
  obtain ⟨m, rfl⟩ := harvestFrom_entries (by simp) h e he
  exact ⟨Bundle.keyed_entry m, Bundle.extracted_value m⟩

/-- One script has the message `a/b`, the other the message `a` with the comment `b`. Both have the
key `a/b`, and the second value takes the place of the first. -/
theorem harvest_keyed_collision :
    let plain : Source :=
      ⟨".ts".toList,
        "import \x7b t \x7d from '@vscode/l10n'; t('a/b'); // vscode l10n".toList, none⟩
    let annotated : Source :=
      ⟨".ts".toList, ("import * as vscode from 'vscode';" ++
        "vscode.l10n.t(\x7b message: 'a', comment: ['b'] \x7d);").toList, none⟩
    ∃ b, (harvest {} [plain, annotated]).1 = .ok b ∧
      b.map (fun e => (e.1, Bundle.message? e.2)) =
        [(Text.ofString "a/b", some ⟨.ofString "a", [.ofString "b"]⟩)] ∧
      ∀ e ∈ b, Bundle.Keyed e ∧ Bundle.Extracted e.2 := by
  intro plain annotated
  have hb : (harvest {} [plain, annotated]).1.toOption.map
      (List.map fun e => (e.1, Bundle.message? e.2)) =
        some [(Text.ofString "a/b", some ⟨.ofString "a", [.ofString "b"]⟩)] := by
    decide +kernel
  cases h : (harvest {} [plain, annotated]).1 with
  | error e => rw [h] at hb; cases hb
  | ok b =>
    rw [h] at hb
    exact ⟨b, rfl, Option.some.inj hb, harvest_keyed h⟩

end Localization.Script
