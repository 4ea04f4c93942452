import Localization.Proofs.Azure
import Localization.Provider.Aws

/-! Batching does not show: a provider that sends many texts at once gives the bundles that one
gives that sends every text by itself, if their services translate every text by itself and
alike. -/

namespace Localization.Provider

namespace Aws

def Translates (f : List Char → Text → List Char) (service : Service) : Prop :=
  ∀ r : Request, service r = .ok (f r.html r.target)

structure Usable (s : AwsSettings) (env : Option Environment) : Prop where
  attempts : env = none ∨ 0 ≤ s.maxAttempts
  concurrency : 0 < s.maxConcurrency

variable {f : List Char → Text → List Char} {service : Service}

/-- The languages come one after another, and each one gets the bundle of its translations. -/
theorem translateEntries_result (hservice : Translates f service) (s : AwsSettings)
    {entries : List Entry} (hsendable : ∀ e ∈ entries, e.isSendable = true)
    (languages : List Text) :
    (translateEntries .markdown (fun _ _ => service) s entries languages).result =
      .ok (languages.map fun language =>
        Fields.ofList (entries.map fun e => (e.key, received (f e.html language)))) := by
  induction languages with
  | nil => rfl
  | cons language languages ih =>
    have hdone : (outcomes .markdown (fun _ => service) s language entries).mapM id =
        .ok (entries.map fun e => ⟨e, language, received (f e.html language)⟩) := by
      have hsame : outcomes .markdown (fun _ => service) s language entries =
          entries.map (translateEntry .markdown service s language) :=
        List.ext_getElem (by simp [outcomes]) (by simp [outcomes])
      rw [hsame, List.mapM_map]
      refine mapM_eq_ok fun e he => ?_
      simp [translateEntry, requestOf, hsendable e he, hservice _, Converter.markdown,
        Except.mapError, Except.map, received]
    simp only [translateEntries, hdone, ih, List.map_cons, Except.map, List.map_map]
    rfl

theorem translateEntries_nil (convert : Converter) (reply : Nat → Nat → Service) (s : AwsSettings)
    (languages : List Text) :
    (translateEntries convert reply s [] languages).requests = [] ∧
      (translateEntries convert reply s [] languages).result = .ok (languages.map fun _ => []) := by
  induction languages generalizing reply with
  | nil => exact ⟨rfl, rfl⟩
  | cons language languages ih =>
    obtain ⟨hrequests, hresult⟩ := ih fun n => reply (n + 1)
    have hnone : (outcomes convert (reply 0) s language []).mapM id = .ok [] := rfl
    rw [translateEntries, hnone]
    exact ⟨hrequests, by simp only [hresult]; rfl⟩

/-- Under settings that can be used, the languages of the translation of a bundle come one after
another. -/
theorem translateBy_eq (reply : Nat → Nat → Service) {s : AwsSettings} {env : Option Environment}
    (hs : Usable s env) {bundle : Bundle} (languages : List Text)
    (htexts : ∀ e ∈ bundle, Bundle.HasText e.2) (m : Means := {}) :
    let run := (translateBy reply s env bundle languages m).1
    let entries := translateEntries m.convert reply s (entriesOf bundle) languages
    run.requests = entries.requests ∧ run.result = entries.result := by
  intro run entries
  by_cases hempty : (bundle.isEmpty || languages.isEmpty) = true
  · have hrun : run = { result := .ok (languages.map fun _ => []) } := by
      simp only [run, translateBy, hempty, if_true]
    rw [hrun]
    rcases (Bool.or_eq_true ..).mp hempty with h | h
    · obtain rfl := List.isEmpty_iff.mp h
      obtain ⟨hrequests, hresult⟩ := translateEntries_nil m.convert reply s languages
      exact ⟨hrequests.symm, hresult.symm⟩
    · obtain rfl := List.isEmpty_iff.mp h
      exact ⟨rfl, rfl⟩
  obtain ⟨opened, hopened⟩ : ∃ opened, env.mapM (Session.open? s) = .ok opened := by
    cases env with
    | none => exact ⟨none, rfl⟩
    | some env =>
      have hattempts : ¬ s.maxAttempts < 0 := by
        rcases hs.attempts with h | h
        · cases h
        · omega
      simp only [Session.open?, hattempts, if_false, Option.mapM_some]
      split <;> exact ⟨_, rfl⟩
  have hconcurrency : ¬ s.maxConcurrency < 0 := by have := hs.concurrency; omega
  simp only [run, entries, translateBy, hempty, hopened, ofBundle_eq_ok htexts, hconcurrency,
    if_false, Bool.false_eq_true, and_self]

theorem translate_result (hservice : Translates f service) {s : AwsSettings}
    {env : Option Environment} (hs : Usable s env) {bundle : Bundle} (languages : List Text)
    (hkeys : bundle.keys.Nodup) (htexts : ∀ e ∈ bundle, Bundle.HasText e.2) :
    (translate service s env bundle languages).1.result =
      .ok (languages.map (translation f bundle)) := by
  rw [translate, (translateBy_eq _ hs languages htexts).2,
    translateEntries_result hservice s (isSendable_entriesOf htexts)]
  exact congrArg _ (List.map_congr_left fun language _ => ofList_entriesOf hkeys f language)

theorem forall₂_of_translateEntries {convert : Converter} {reply : Nat → Nat → Service}
    {s : AwsSettings} {entries : List Entry} {languages : List Text} {bs : List (Fields Text)}
    (h : (translateEntries convert reply s entries languages).result = .ok bs) :
    List.Forall₂ (fun _ m => m.keys.Nodup) languages bs := by
  induction languages generalizing bs reply with
  | nil =>
    obtain rfl := Except.ok.inj h
    exact .nil
  | cons language languages ih =>
    rw [translateEntries] at h
    split at h
    · cases h
    · obtain ⟨more, hmore, rfl⟩ := map_eq_ok_iff.mp h
      exact .cons (Fields.nodup_keys_ofList _) (ih hmore)

/-- There is a bundle with distinct keys for every language. -/
theorem forall₂_of_translate {service : Service} {s : AwsSettings} {env : Option Environment}
    {bundle : Bundle} {languages : List Text} {m : Means} {bs : List (Fields Text)}
    (h : (translate service s env bundle languages m).1.result = .ok bs) :
    List.Forall₂ (fun _ m => m.keys.Nodup) languages bs := by
  unfold translate translateBy at h
  split at h
  · obtain rfl := Except.ok.inj h
    rw [List.forall₂_map_right_iff, List.forall₂_same]
    exact fun _ _ => List.nodup_nil
  split at h
  · cases h
  dsimp only at h
  split at h
  · cases h
  split at h
  · cases h
  · exact forall₂_of_translateEntries h

theorem length_of_translate {service : Service} {s : AwsSettings} {env : Option Environment}
    {bundle : Bundle} {languages : List Text} {m : Means} {bs : List (Fields Text)}
    (h : (translate service s env bundle languages m).1.result = .ok bs) :
    bs.length = languages.length :=
  (forall₂_of_translate h).length_eq.symm

end Aws

/-- If both services translate every text by itself, as `f` does, then under all limits that no
message exceeds the bundles of either provider are the same: one for each language in order, with
the keys of the source in order and the translation of its own message at each key. -/
theorem translate_eq_translation {f : List Char → Text → List Char} {azure : Azure.Service}
    {aws : Aws.Service} (hazure : Azure.Translates f azure) (haws : Aws.Translates f aws)
    {bundle : Bundle} {languages : List Text} (hbundle : bundle ≠ []) (hlanguages : languages ≠ [])
    (hkeys : bundle.keys.Nodup) (htexts : ∀ e ∈ bundle, Bundle.HasText e.2)
    {s : AzureSettings} (hs : Azure.Usable s languages)
    {t : AwsSettings} {env : Option Environment} (ht : Aws.Usable t env) :
    (∀ limits : Limits,
      (∀ e ∈ bundle, ((sent (Bundle.text e.2)).length : Int) ≤ limits.maxItemSize) →
      (Azure.translate azure s limits bundle languages).result =
        .ok (languages.map (translation f bundle))) ∧
    (Aws.translate aws t env bundle languages).1.result =
      .ok (languages.map (translation f bundle)) := by
  constructor
  · intro limits hsize
    exact Azure.translate_result hazure hs hbundle hlanguages hkeys htexts hsize
  · exact Aws.translate_result haws ht languages hkeys htexts

/-- Two messages, one of them with a comment, go into two batches for two languages. The service
puts the language behind each text. -/
theorem translate_eq_translation_marked :
    let f : List Char → Text → List Char := fun html language => html ++ plainChars language
    let bundle : Bundle :=
      [("Open", .string "Open"),
       ("Save/verb", .object [("message", .string "Save"), ("comment", .array [.string "verb"])])]
    let languages : List Text := [Text.ofString "fr", Text.ofString "de"]
    let s : AzureSettings := { key := "key", region := "westeurope" }
    let limits : Limits :=
      { maxItemSize := (sent "Open").length + (sent "Save").length, maxItems := 1 }
    (Azure.translate (.ofFunction f) s limits bundle languages).result =
        .ok (languages.map (translation f bundle)) ∧
      (Aws.translate (fun r => .ok (f r.html r.target)) {} none bundle languages).1.result =
        .ok (languages.map (translation f bundle)) := by
  intro f bundle languages s limits
  have htext : ∀ e ∈ bundle, Bundle.text e.2 = "Open" ∨ Bundle.text e.2 = "Save" := by
    decide
  have hvalid : ∀ e ∈ bundle, Bundle.HasText e.2 := by
    intro e he
    simp only [bundle, List.mem_cons, List.not_mem_nil, or_false] at he
    rcases he with rfl | rfl
    · exact ⟨"Open".toList, rfl⟩
    · exact ⟨"Save".toList, rfl⟩
  have hs : Azure.Usable s languages := ⟨by decide +kernel, by decide, by decide, by decide⟩
  have ht : Aws.Usable {} none := ⟨.inl rfl, by decide⟩
  have hazure : Azure.Translates f (.ofFunction f) := Azure.translates_ofFunction f
  have haws : Aws.Translates f fun r => .ok (f r.html r.target) := fun _ => rfl
  have hkeys : bundle.keys.Nodup := by decide
  obtain ⟨hazure, haws⟩ := translate_eq_translation hazure haws (by simp [bundle])
    (by simp [languages]) hkeys hvalid hs ht
  refine ⟨hazure limits fun e he => ?_, haws⟩
  rcases htext e he with h | h <;> rw [h] <;> simp only [limits] <;> omega

end Localization.Provider
