import Localization.Proofs.Batch
import Localization.Proofs.Json.Encoded
import Localization.Proofs.Provider
import Localization.Provider.Azure

/-! The provider that takes requests of many texts. If the service translates every text by itself,
the outputs of the batches, in order, are those of the entries, and what they hold in a language
makes up the bundle of that language. -/

namespace Localization.Provider.Azure

/-- An output holds the translations of a text, one for each language. Whatever else it and they
hold plays no part. -/
def Holds (f : List Char → Text → List Char) (languages : List Text) (text : List Char)
    (output : Json) : Prop :=
  ∃ targets, output.field? "translations" = some (.array targets) ∧
    List.Forall₂ (fun language target =>
      target.field? "text" = some (.string (.ofChars (f text language)))) languages targets

/-- A service that answers every request with an output for each text, and translates every text
by itself. -/
def Translates (f : List Char → Text → List Char) (service : Service) : Prop :=
  ∀ r : Request, ∃ body outputs, service r = .response 200 body ∧
    Json.ofBytes body = .ok (.array outputs) ∧
    List.Forall₂ (Holds f r.languages) r.texts outputs

structure Usable (s : AzureSettings) (languages : List Text) : Prop where
  address : (address? s languages).isSome = true
  key : isSendable s.key = true
  region : isSendable s.region = true
  concurrency : 0 < s.maxConcurrency

def outputOf (f : List Char → Text → List Char) (languages : List Text) (text : List Char) : Json :=
  .object [("translations", .array (languages.map fun language =>
    .object [("text", .string (.ofChars (f text language)))]))]

def Service.ofFunction (f : List Char → Text → List Char) : Service := fun r =>
  .answer 200 (plainChars (Json.render (.array (r.texts.map (outputOf f r.languages)))))

theorem holds_outputOf (f : List Char → Text → List Char) (languages : List Text)
    (text : List Char) : Holds f languages text (outputOf f languages text) := by
  refine ⟨_, rfl, ?_⟩
  rw [List.forall₂_map_right_iff, List.forall₂_same]
  intro language _
  rfl

theorem textual_outputOf (n : Nat) (f : List Char → Text → List Char) (languages : List Text)
    (text : List Char) : (outputOf f languages text).Textual (n + 3) := by
  refine .object (by simpa using ⟨_, rfl⟩) (by simp [Fields.keys]) ?_
  simp only [List.mem_singleton, forall_eq]
  refine .array fun v hv => ?_
  obtain ⟨language, -, rfl⟩ := List.mem_map.mp hv
  refine .object (by simpa using ⟨_, rfl⟩) (by simp [Fields.keys]) ?_
  simpa using Json.Textual.string (f text language)

theorem translates_ofFunction (f : List Char → Text → List Char) :
    Translates f (Service.ofFunction f) := by
  intro r
  have htextual : (Json.array (r.texts.map (outputOf f r.languages))).Textual
      Json.usualNesting := by
    refine .array fun v hv => ?_
    obtain ⟨text, -, rfl⟩ := List.mem_map.mp hv
    exact textual_outputOf _ f r.languages text
  obtain ⟨cs, hcs, hread⟩ := Json.ofBytes_render_array htextual
  refine ⟨Utf8.encode cs, _, ?_, hread, ?_⟩
  · rw [Service.ofFunction, hcs, plainChars_ofChars, Reply.answer]
  · rw [List.forall₂_map_right_iff, List.forall₂_same]
    exact fun text _ => holds_outputOf f r.languages text

variable {f : List Char → Text → List Char} {languages : List Text}

/-- The translations of an entry with the places of their languages. -/
def placed (f : List Char → Text → List Char) (languages : List Text) (e : Entry) :
    List (Nat × Translated) :=
  languages.mapIdx fun n language => (n, ⟨e, language, received (f e.html language)⟩)

theorem textOf_eq_ok {cs : List Char} {target : Json}
    (h : target.field? "text" = some (.string (.ofChars cs))) :
    textOf .markdown target = .ok (received cs) := by
  simp [textOf, requiredField, h, bind, Except.bind, Except.mapError, Converter.markdown, received]

/-- What an output holds for an entry is read without a fault. -/
theorem translated_eq {e : Entry} {output : Json} (h : Holds f languages e.html output) :
    translated .markdown languages e output = (placed f languages e).map .ok := by
  obtain ⟨targets, hfield, htargets⟩ := h
  have hlisted : listed output = .ok targets := by
    simp [listed, requiredField, hfield, bind, Except.bind]
  have hplaced : (placed f languages e).map (@Except.ok Fault _) =
      languages.mapIdx fun n language => .ok (n, ⟨e, language, received (f e.html language)⟩) := by
    rw [placed, List.mapIdx_eq_zipIdx_map, List.mapIdx_eq_zipIdx_map, List.map_map]
    rfl
  rw [translated, hlisted, hplaced]
  refine mapIdx_zip htargets fun n language target htarget => ?_
  simp only [textOf_eq_ok htarget, Except.map]

/-- The batch of some entries is answered with an output for each. -/
theorem send_eq_ok {service : Service} (hservice : Translates f service) {s : AzureSettings}
    (hs : Usable s languages) {entries es : List Entry} {b : Batch}
    (hsendable : ∀ e ∈ entries, e.isSendable = true) (hitems : es.map Entry.item = b.items) :
    ∃ outputs, (send service Json.usualNesting s languages (address? s languages) entries b).2 =
      .ok outputs ∧
      List.Forall₂ (fun e output => Holds f languages e.html output) es outputs := by
  obtain ⟨url, hurl⟩ := Option.isSome_iff_exists.mp hs.address
  obtain ⟨body, outputs, hanswer, hbody, hholds⟩ := hservice
    { url, key := s.key, region := s.region, languages, texts := b.items.map Item.text }
  have htexts : b.items.map Item.text = es.map Entry.html := by
    rw [← hitems, List.map_map]
    rfl
  have hlen : outputs.length = b.items.length := by
    rw [← hholds.length_eq, List.length_map]
  have hsent :
      (isSendable s.key && isSendable s.region && entries.all Entry.isSendable) = true := by
    simp [hs.key, hs.region, List.all_eq_true.mpr hsendable]
  refine ⟨outputs, ?_, ?_⟩
  · simp only [send, hurl, hsent, if_true, hanswer]
    simp [outputsOf, hbody, Json.items?, hlen]
  · simp only [htexts, List.forall₂_map_left_iff] at hholds
    exact hholds

theorem bundles_placed (entries : List Entry) :
    bundles languages (entries.flatMap (placed f languages)) =
      languages.map fun language =>
        Fields.ofList (entries.map fun e => (e.key, received (f e.html language))) := by
  refine List.ext_getElem (by simp [bundles]) fun n hn _ => ?_
  have hn : n < languages.length := by simpa [bundles] using hn
  have hpick : ∀ e : Entry, (placed f languages e).filter (fun t => t.1 == n) =
      [(n, ⟨e, languages[n], received (f e.html languages[n])⟩)] := fun e =>
    filter_mapIdx (fun language => Translated.mk e language (received (f e.html language)))
      languages 0 n hn
  simp only [bundles, List.getElem_mapIdx, List.getElem_map, List.filter_flatMap, hpick,
    ← List.map_eq_flatMap, List.map_map]
  rfl

section Batches

variable {service : Service} {s : AzureSettings} {batches : List Batch} {entries : List Entry}

/-- Every batch is answered with an output for each of its entries. -/
theorem sendAll_eq_ok (hservice : Translates f service) (hs : Usable s languages)
    (hsendable : ∀ e ∈ entries, e.isSendable = true)
    (hitems : ∀ b ∈ batches,
      ((entries.drop b.start).take b.items.length).map Entry.item = b.items) :
    ∃ outputs, ((withEntries batches entries).map fun (b, es) =>
        send service Json.usualNesting s languages (address? s languages) es b).mapM Prod.snd =
          .ok outputs ∧
      List.Forall₂ (fun p outs =>
        List.Forall₂ (fun e output => Holds f languages e.html output) p.2 outs)
        (withEntries batches entries) outputs := by
  rw [List.mapM_map]
  refine mapM_forall₂ fun p hp => ?_
  obtain ⟨b, hb, rfl⟩ := List.mem_map.mp hp
  refine send_eq_ok hservice hs (fun e he => ?_) (hitems b hb)
  exact hsendable e (List.mem_of_mem_drop (List.mem_of_mem_take he))

/-- The outputs of the batches hold the translations of all entries in order. -/
theorem translatedAll_eq {outputs : List (List Json)}
    (hflat : batches.flatMap (fun b => (entries.drop b.start).take b.items.length) = entries)
    (houtputs : List.Forall₂ (fun p outs =>
      List.Forall₂ (fun e output => Holds f languages e.html output) p.2 outs)
      (withEntries batches entries) outputs) :
    (((withEntries batches entries).zip outputs).flatMap fun ((_, es), outs) =>
      (es.zip outs).flatMap fun (e, out) => translated .markdown languages e out) =
        (entries.flatMap (placed f languages)).map .ok := by
  rw [flatMap_zip houtputs (g := fun p => p.2.flatMap fun e => (placed f languages e).map .ok)]
  · rw [withEntries, List.flatMap_map, ← List.flatMap_assoc, List.map_flatMap]
    exact congrArg (List.flatMap _) hflat
  · intro p outs hp
    exact flatMap_zip hp fun e output => translated_eq

end Batches

/-- Whatever the batches, every language gets a bundle with the keys of the source in their order,
and every key the translation of its own message. -/
theorem translate_result {service : Service} (hservice : Translates f service) {s : AzureSettings}
    (hs : Usable s languages) {limits : Limits} {bundle : Bundle} (hbundle : bundle ≠ [])
    (hlanguages : languages ≠ []) (hkeys : bundle.keys.Nodup)
    (htexts : ∀ e ∈ bundle, Bundle.HasText e.2)
    (hsize : ∀ e ∈ bundle, ((sent (Bundle.text e.2)).length : Int) ≤ limits.maxItemSize) :
    (translate service s limits bundle languages).result =
      .ok (languages.map (translation f bundle)) := by
  have hbatches : Batch.ofItems limits languages.length ((entriesOf bundle).map Entry.item) =
      .ok (Batch.group limits languages.length ((entriesOf bundle).map Entry.item)) := by
    refine Batch.ofItems_eq_ok _ fun i hi => ?_
    rw [entriesOf, List.map_map] at hi
    obtain ⟨e, he, rfl⟩ := List.mem_map.mp hi
    exact hsize e he
  have htiling := Batch.group_tiling limits languages.length ((entriesOf bundle).map Entry.item)
  generalize Batch.group limits languages.length ((entriesOf bundle).map Entry.item) = batches
    at hbatches htiling
  obtain ⟨hflat, hitems⟩ := htiling.parts Entry.item [] (entriesOf bundle) rfl rfl
  simp only [List.nil_append] at hflat hitems
  obtain ⟨outputs, houtputs, hholds⟩ :=
    sendAll_eq_ok hservice hs (isSendable_entriesOf htexts) hitems
  have hconcurrency : ¬ s.maxConcurrency < 0 := by have := hs.concurrency; omega
  have hempty : (bundle.isEmpty || languages.isEmpty) = false := by simp [hbundle, hlanguages]
  simp only [translate, translateBy, hempty, ofBundle_eq_ok htexts, hbatches, hconcurrency,
    houtputs, translatedAll_eq hflat hholds, untilFault_ok, bundles_placed, if_false,
    Bool.false_eq_true]
  exact congrArg _ (List.map_congr_left fun language _ => ofList_entriesOf hkeys f language)

theorem bundles_nil (languages : List Text) : bundles languages [] = languages.map fun _ => [] :=
  List.ext_getElem (by simp [bundles]) (by simp [bundles, Fields.ofList])

/-- What is translated is made of the messages of the answers, however little they hold. -/
theorem exists_bundles_of_translate {service : Service} {s : AzureSettings} {limits : Limits}
    {bundle : Bundle} {languages : List Text} {m : Means} {bs : List (Fields Text)}
    (h : (translate service s limits bundle languages m).result = .ok bs) :
    ∃ all, bs = bundles languages all := by
  unfold translate translateBy at h
  split at h
  · exact ⟨[], bundles_nil languages ▸ (Except.ok.inj h).symm⟩
  split at h
  · cases h
  split at h
  · cases h
  split at h
  · cases h
  dsimp only at h
  split at h
  · cases h
  split at h
  · cases h
  · exact ⟨_, (Except.ok.inj h).symm⟩

/-- There is a bundle for every language. -/
theorem length_of_translate {service : Service} {s : AzureSettings} {limits : Limits}
    {bundle : Bundle} {languages : List Text} {m : Means} {bs : List (Fields Text)}
    (h : (translate service s limits bundle languages m).result = .ok bs) :
    bs.length = languages.length := by
  obtain ⟨all, rfl⟩ := exists_bundles_of_translate h
  exact List.length_mapIdx

/-- The keys of a bundle that is translated are distinct. -/
theorem nodup_keys_of_translate {service : Service} {s : AzureSettings} {limits : Limits}
    {bundle : Bundle} {languages : List Text} {m : Means} {bs : List (Fields Text)}
    (h : (translate service s limits bundle languages m).result = .ok bs) {b : Fields Text}
    (hb : b ∈ bs) : b.keys.Nodup := by
  obtain ⟨all, rfl⟩ := exists_bundles_of_translate h
  obtain ⟨n, _, rfl⟩ := List.mem_mapIdx.mp hb
  exact Fields.nodup_keys_ofList _

end Localization.Provider.Azure
