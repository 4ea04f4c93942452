import Localization.Proofs.Provider.Replies

/-! Whatever a service replies to the requests of batches: an output that holds too few translations
leaves its key out of bundles, and one that cannot be read fails the translation in a way of its
own. -/

namespace Localization.Provider

section Lists

variable {ε α β γ : Type}

/-- Parts that are as long as their partners are put together with them as a whole. -/
theorem flatMap_zip_zip {parts : List (List α)} {others : List (List β)} {f : α × β → List γ}
    (h : List.Forall₂ (fun xs ys => xs.length = ys.length) parts others) :
    ((parts.zip others).flatMap fun p => (p.1.zip p.2).flatMap f) =
      (parts.flatten.zip others.flatten).flatMap f := by
  induction h with
  | nil => rfl
  | cons hlen _ ih =>
    rw [List.zip_cons_cons, List.flatMap_cons, ih, List.flatten_cons, List.flatten_cons,
      List.zip_append hlen, List.flatMap_append]

theorem length_flatten_eq {parts : List (List α)} {others : List (List β)}
    (h : List.Forall₂ (fun xs ys => xs.length = ys.length) parts others) :
    parts.flatten.length = others.flatten.length := by
  induction h with
  | nil => rfl
  | cons hlen _ ih =>
    rw [List.flatten_cons, List.flatten_cons, List.length_append, List.length_append, hlen, ih]

theorem forall_iff_of_forall₂ {R : α → β → Prop} {P : α → Prop} {Q : β → Prop} {xs : List α}
    {ys : List β} (h : List.Forall₂ R xs ys) (hPQ : ∀ x y, R x y → (P x ↔ Q y)) :
    (∀ x ∈ xs, P x) ↔ ∀ y ∈ ys, Q y := by
  induction h with
  | nil => simp
  | cons hR _ ih => rw [List.forall_mem_cons, List.forall_mem_cons, hPQ _ _ hR, ih]

theorem untilFault_eq_none_iff {xs : List (Except ε α)} :
    (untilFault xs).2 = none ↔ ∃ as : List α, xs = as.map .ok := by
  constructor
  · intro h
    induction xs with
    | nil => exact ⟨[], rfl⟩
    | cons x xs ih =>
      cases x with
      | error e => cases h
      | ok a =>
        obtain ⟨as, rfl⟩ := ih h
        exact ⟨a :: as, rfl⟩
  · rintro ⟨as, rfl⟩
    rw [untilFault_ok]

theorem mem_of_untilFault {xs : List (Except ε α)} {e : ε} (h : (untilFault xs).2 = some e) :
    .error e ∈ xs := by
  induction xs with
  | nil => cases h
  | cons x xs ih =>
    cases x with
    | error e' =>
      obtain rfl := Option.some.inj h
      exact List.mem_cons_self
    | ok a => exact List.mem_cons_of_mem _ (ih h)

theorem flatMap_ite (p : α → Prop) [DecidablePred p] (f : α → β) (xs : List α) :
    (xs.flatMap fun x => if p x then [f x] else []) = (xs.filter p).map f := by
  induction xs with
  | nil => rfl
  | cons x xs ih =>
    by_cases hx : p x
    · simp [hx, ih]
    · simp [hx, ih]

/-- Among elements with their places no place beyond the last one is found. -/
theorem filter_mapIdx_eq_nil (g : α → β) (xs : List α) {n : Nat} (hn : xs.length ≤ n) :
    (xs.mapIdx fun i x => (i, g x)).filter (fun t => t.1 == n) = [] := by
  rw [List.filter_eq_nil_iff]
  intro t ht
  obtain ⟨i, hi, rfl⟩ := List.mem_mapIdx.mp ht
  simp only [beq_iff_eq]
  omega

end Lists

namespace Azure

variable {languages : List Text} {s : AzureSettings} {m : Means}

/-- The request of a batch under settings that can be used. -/
def request (s : AzureSettings) (languages : List Text) (b : Batch) : Request :=
  { url := (address? s languages).getD [], key := s.key, region := s.region, languages,
    texts := b.items.map Item.text }

/-- What comes back for a batch. -/
def replyTo (reply : Batch → Service) (s : AzureSettings) (languages : List Text) (b : Batch) :
    Reply :=
  reply b (request s languages b)

/-- The outputs for a batch, or why there are none. -/
def outcome (nesting : Nat) (reply : Batch → Service) (s : AzureSettings) (languages : List Text)
    (b : Batch) : Except Fault (List Json) :=
  outputsOf nesting b (replyTo reply s languages b)

theorem send_eq {service : Service} {nesting : Nat} (hs : Usable s languages) {es : List Entry}
    (hsendable : ∀ e ∈ es, e.isSendable = true) (b : Batch) :
    send service nesting s languages (address? s languages) es b =
      (some (request s languages b), outputsOf nesting b (service (request s languages b))) := by
  obtain ⟨url, hurl⟩ := Option.isSome_iff_exists.mp hs.address
  have hsent : (isSendable s.key && isSendable s.region && es.all Entry.isSendable) = true := by
    simp [hs.key, hs.region, List.all_eq_true.mpr hsendable]
  simp only [send, request, hurl, hsent, if_true, Option.getD_some]

/-- What the outputs of batches hold, each batch with its entries. -/
def messages (convert : Converter) (languages : List Text) (pairs : List (Batch × List Entry))
    (outputs : List (List Json)) : List (Except Fault (Nat × Translated)) :=
  (pairs.zip outputs).flatMap fun ((_, es), outs) =>
    (es.zip outs).flatMap fun (e, out) => translated convert languages e out

/-- The bundles that the results of batches come to. The first fault decides. -/
def settle (convert : Converter) (languages : List Text) (pairs : List (Batch × List Entry))
    (results : List (Except Fault (List Json))) : Except Fault (List (Fields Text)) := do
  let outputs ← results.mapM id
  match untilFault (messages convert languages pairs outputs) with
  | (_, some e) => .error e
  | (done, none) => .ok (bundles languages done)

section Translating

variable {reply : Batch → Service} {limits : Limits} {bundle : Bundle}

theorem translateBy_nil (h : bundle = [] ∨ languages = []) :
    translateBy reply s limits bundle languages m =
      { result := .ok (languages.map fun _ => []) } := by
  have hempty : (bundle.isEmpty || languages.isEmpty) = true := by
    rcases h with rfl | rfl <;> simp
  rw [translateBy, if_pos hempty]

theorem translateBy_tooLarge (hbundle : bundle ≠ []) (hlanguages : languages ≠ [])
    (htexts : ∀ e ∈ bundle, Bundle.HasText e.2) {item : Item}
    (hbatches : Batch.ofItems limits languages.length ((entriesOf bundle).map Entry.item) =
      .error item) :
    translateBy reply s limits bundle languages m = { result := .error (.tooLarge item) } := by
  have hempty : (bundle.isEmpty || languages.isEmpty) = false := by simp [hbundle, hlanguages]
  simp only [translateBy, hempty, ofBundle_eq_ok htexts, hbatches, if_false, Bool.false_eq_true]

/-- Every batch is sent as a request of its own, whatever comes back for the others. -/
theorem sends_eq (reply : Batch → Service) (hs : Usable s languages) (batches : List Batch)
    {entries : List Entry} (hsendable : ∀ e ∈ entries, e.isSendable = true) :
    ((withEntries batches entries).map fun (b, es) =>
      send (reply b) m.nesting s languages (address? s languages) es b) =
        batches.map fun b =>
          (some (request s languages b), outcome m.nesting reply s languages b) := by
  rw [withEntries, List.map_map]
  refine List.map_congr_left fun b _ => send_eq hs (fun e he => ?_) b
  exact hsendable e (List.mem_of_mem_drop (List.mem_of_mem_take he))

/-- All batches are sent, and their outcomes in order are settled. -/
theorem translateBy_eq (reply : Batch → Service) (hs : Usable s languages)
    (hlanguages : languages ≠ []) (htexts : ∀ e ∈ bundle, Bundle.HasText e.2)
    {batches : List Batch}
    (hbatches : Batch.ofItems limits languages.length ((entriesOf bundle).map Entry.item) =
      .ok batches) :
    (translateBy reply s limits bundle languages m).requests = batches.map (request s languages) ∧
      (translateBy reply s limits bundle languages m).result =
        settle m.convert languages (withEntries batches (entriesOf bundle))
          (batches.map (outcome m.nesting reply s languages)) := by
  by_cases hbundle : bundle = []
  · subst hbundle
    obtain rfl : [] = batches := Except.ok.inj hbatches
    rw [translateBy_nil (.inl rfl)]
    exact ⟨rfl, congrArg Except.ok (bundles_nil languages).symm⟩
  have hempty : (bundle.isEmpty || languages.isEmpty) = false := by simp [hbundle, hlanguages]
  have hconcurrency : ¬ s.maxConcurrency < 0 := by have := hs.concurrency; omega
  have hsends := sends_eq (m := m) reply hs batches (isSendable_entriesOf htexts)
  have hresults : (batches.map fun b =>
      (some (request s languages b), outcome m.nesting reply s languages b)).mapM Prod.snd =
        (batches.map (outcome m.nesting reply s languages)).mapM id := by
    rw [List.mapM_map, List.mapM_map]
    rfl
  simp only [translateBy, hempty, ofBundle_eq_ok htexts, hbatches, hconcurrency, hsends, hresults,
    if_false, Bool.false_eq_true, List.filterMap_map, settle]
  cases (batches.map (outcome m.nesting reply s languages)).mapM id with
  | error f => exact ⟨by simp, rfl⟩
  | ok outputs =>
    simp only [bind, Except.bind, messages]
    generalize untilFault _ = read
    obtain ⟨done, _ | e⟩ := read
    · exact ⟨by simp, rfl⟩
    · exact ⟨by simp, rfl⟩

end Translating

/-! The bundles that outputs come to. -/

section Bundles

variable {rows : List (Entry × List Text)}

/-- The keys of entries that have a text in the language at a place. -/
def keysAt (rows : List (Entry × List Text)) (n : Nat) : List Text :=
  (rows.filter fun r => n < r.2.length).map (·.1.key)

theorem keysAt_sublist (rows : List (Entry × List Text)) (n : Nat) :
    (keysAt rows n).Sublist (rows.map (·.1.key)) :=
  List.filter_sublist.map _

theorem keysAt_eq_iff {n : Nat} :
    keysAt rows n = rows.map (·.1.key) ↔ ∀ r ∈ rows, n < r.2.length := by
  constructor
  · intro h r hr
    have hlen := congrArg List.length h
    rw [keysAt, List.length_map, List.length_map] at hlen
    simpa using List.length_filter_eq_length_iff.mp hlen r hr
  · intro h
    rw [keysAt, List.filter_eq_self.mpr (by simpa using h)]

/-- Each bundle has the keys of the entries that have a text in its language. -/
theorem keys_bundles (hkeys : (rows.map (·.1.key)).Nodup) :
    (bundles languages (rows.flatMap fun r => told languages r.1 r.2)).map Fields.keys =
      (List.range languages.length).map (keysAt rows) := by
  refine List.ext_getElem (by simp [bundles]) fun n hn _ => ?_
  have hn : n < languages.length := by simpa [bundles] using hn
  have hpick : ∀ r : Entry × List Text,
      ((told languages r.1 r.2).filter fun t => t.1 == n).map (fun t => t.2.entry.key) =
        if n < r.2.length then [r.1.key] else [] := by
    intro r
    split
    · have hzip : n < (languages.zip r.2).length := by rw [List.length_zip]; omega
      have hfound := filter_mapIdx (fun z : Text × Text => Translated.mk r.1 z.1 z.2)
        (languages.zip r.2) 0 n hzip
      simp only [Nat.add_zero] at hfound
      rw [told, hfound]
      rfl
    · have hzip : (languages.zip r.2).length ≤ n := by rw [List.length_zip]; omega
      rw [told, filter_mapIdx_eq_nil _ _ hzip]
      rfl
  have hall : ((rows.flatMap fun r => told languages r.1 r.2).filter fun t => t.1 == n).map
      (fun t => t.2.entry.key) = keysAt rows n := by
    rw [List.filter_flatMap, List.map_flatMap]
    simp only [hpick, keysAt, flatMap_ite]
  simp only [bundles, List.getElem_map, List.getElem_mapIdx, List.getElem_range]
  rw [Fields.ofList_eq_self]
  · rw [Fields.keys, List.map_map]
    exact hall
  · rw [Fields.keys, List.map_map]
    exact hall ▸ hkeys.sublist (keysAt_sublist rows n)

variable {bundle : Bundle}

/-- Either a refusal, or a bundle for every language that has the keys of the source. -/
def Settled (bundle : Bundle) (languages : List Text) : Except Fault (List (Fields Text)) → Prop
  | .error f => f.kind = "TranslationError"
  | .ok bs => bs.map Fields.keys = languages.map fun _ => bundle.keys

/-- The bundles have all keys if every entry has a text in every language. -/
theorem settled_bundles_iff (hrows : rows.map (·.1.key) = bundle.keys)
    (hkeys : bundle.keys.Nodup) :
    Settled bundle languages
        (.ok (bundles languages (rows.flatMap fun r => told languages r.1 r.2))) ↔
      ∀ r ∈ rows, languages.length ≤ r.2.length := by
  rw [Settled, keys_bundles (hrows ▸ hkeys), List.map_const', List.eq_replicate_iff, ← hrows]
  simp only [List.length_map, List.length_range, true_and, List.forall_mem_map, List.mem_range,
    keysAt_eq_iff]
  constructor
  · intro h r hr
    by_contra hlt
    exact absurd (h r.2.length (Nat.lt_of_not_le hlt) r hr) (Nat.lt_irrefl _)
  · exact fun h n hn r hr => Nat.lt_of_lt_of_le hn (h r hr)

end Bundles

/-! Outputs for all batches. -/

section Settling

variable {bundle : Bundle} {entries : List Entry} {batches : List Batch}
  {outputs : List (List Json)} {convert : Converter}

/-- Outputs for all items of the batches are outputs for all entries. -/
theorem messages_eq (convert : Converter) (languages : List Text) {n : Int}
    (htiling : Batch.Tiling n 1 0 batches (entries.map Entry.item))
    (houtputs : List.Forall₂ (fun b outs => outs.length = b.items.length) batches outputs) :
    entries.length = outputs.flatten.length ∧
      messages convert languages (withEntries batches entries) outputs =
        (entries.zip outputs.flatten).flatMap fun p => translated convert languages p.1 p.2 := by
  obtain ⟨hflat, hitems⟩ := htiling.parts Entry.item [] entries rfl rfl
  simp only [List.nil_append] at hflat hitems
  have hparts : List.Forall₂ (fun es outs => es.length = outs.length)
      (batches.map fun b => (entries.drop b.start).take b.items.length) outputs := by
    rw [List.forall₂_map_left_iff]
    refine ((List.forall₂_and_left _ _).mpr ⟨hitems, houtputs⟩).imp ?_
    rintro b outs ⟨hpart, hlen⟩
    exact ((List.length_map _).symm.trans (congrArg List.length hpart)).trans hlen.symm
  have hcount := length_flatten_eq hparts
  have hwhole := flatMap_zip_zip (f := fun p => translated convert languages p.1 p.2) hparts
  rw [← List.flatMap_def, hflat] at hcount hwhole
  refine ⟨hcount, ?_⟩
  rw [← hwhole, messages, withEntries, List.zip_map_left, List.zip_map_left, List.flatMap_map,
    List.flatMap_map]
  rfl

theorem translatedAll_of_texts {outs : List Json} {tss : List (List Text)}
    (h : List.Forall₂ (fun output ts => texts convert languages output = .ok ts) outs tss)
    (entries : List Entry) :
    ((entries.zip outs).flatMap fun p => translated convert languages p.1 p.2) =
      ((entries.zip tss).flatMap fun r => told languages r.1 r.2).map .ok := by
  induction h generalizing entries with
  | nil => simp
  | cons htexts _ ih =>
    cases entries with
    | nil => rfl
    | cons e entries =>
      rw [List.zip_cons_cons, List.zip_cons_cons, List.flatMap_cons, List.flatMap_cons,
        List.map_append, ih, translated_of_texts htexts]

theorem exists_fault_of_texts {outs : List Json} {f : Fault}
    (h : outs.mapM (texts convert languages) = .error f) (hcount : entries.length = outs.length) :
    ∃ f', .error f' ∈ (entries.zip outs).flatMap fun p => translated convert languages p.1 p.2 := by
  obtain ⟨before, output, after, rfl, houtput, -⟩ := mapM_eq_error h
  have hlt : before.length < entries.length := by simp [hcount]
  obtain ⟨f', hf'⟩ := fault_of_texts (e := entries[before.length]) houtput
  refine ⟨f', List.mem_flatMap.mpr ⟨(entries[before.length], output), ?_, hf'⟩⟩
  exact List.mem_iff_getElem.mpr ⟨before.length, by simp [hcount], by simp⟩

/-- If an output cannot be read, the first fault among the messages is one of an output. -/
theorem untilFault_of_texts {outs : List Json} {f : Fault}
    (h : outs.mapM (texts convert languages) = .error f) (hcount : entries.length = outs.length) :
    ∃ done f', untilFault ((entries.zip outs).flatMap fun p =>
        translated convert languages p.1 p.2) = (done, some f') ∧ IsOfOutput convert f' := by
  obtain ⟨f', hf'⟩ := exists_fault_of_texts h hcount
  cases hread : untilFault ((entries.zip outs).flatMap fun p =>
      translated convert languages p.1 p.2) with
  | mk done fault =>
    cases fault with
    | none =>
      obtain ⟨as, has⟩ := untilFault_eq_none_iff.mp (congrArg Prod.snd hread)
      rw [has] at hf'
      simp at hf'
    | some e =>
      obtain ⟨⟨_, _⟩, -, he⟩ := List.mem_flatMap.mp (mem_of_untilFault (congrArg Prod.snd hread))
      exact ⟨done, e, rfl, isOfOutput_of_translated he⟩

theorem not_complete_of_texts {outs : List Json} {f : Fault}
    (h : outs.mapM (texts convert languages) = .error f) :
    ¬ ∀ output ∈ outs, Complete convert languages output := by
  intro hcomplete
  obtain ⟨before, output, after, hsplit, houtput, -⟩ := mapM_eq_error h
  obtain ⟨ts, hts⟩ := texts_of_complete (hcomplete output (by simp [hsplit]))
  rw [houtput] at hts
  cases hts

theorem complete_all_iff (hlanguages : languages ≠ []) {outs : List Json} {tss : List (List Text)}
    (h : List.Forall₂ (fun output ts => texts convert languages output = .ok ts) outs tss)
    (hcount : entries.length = tss.length) :
    (∀ r ∈ entries.zip tss, languages.length ≤ r.2.length) ↔
      ∀ output ∈ outs, Complete convert languages output := by
  have hsnd : (entries.zip tss).map Prod.snd = tss := List.map_snd_zip hcount.ge
  rw [forall_iff_of_forall₂ h fun output ts => complete_iff hlanguages, ← hsnd,
    List.forall_mem_map, hsnd]

theorem keys_zip {tss : List (List Text)} (hcount : (entriesOf bundle).length = tss.length) :
    ((entriesOf bundle).zip tss).map (·.1.key) = bundle.keys :=
  calc ((entriesOf bundle).zip tss).map (·.1.key)
      = (((entriesOf bundle).zip tss).map Prod.fst).map Entry.key := List.map_map.symm
    _ = (entriesOf bundle).map Entry.key := by rw [List.map_fst_zip hcount.le]
    _ = bundle.keys := List.map_map

/-- If every batch is answered, either an output cannot be read, or there is a bundle for every
language. -/
theorem settle_cases (hlanguages : languages ≠ []) (hkeys : bundle.keys.Nodup) {n : Int}
    (htiling : Batch.Tiling n 1 0 batches ((entriesOf bundle).map Entry.item))
    (houtputs : List.Forall₂ (fun b outs => outs.length = b.items.length) batches outputs)
    {results : List (Except Fault (List Json))} (hresults : results.mapM id = .ok outputs) :
    (∃ f, IsOfOutput convert f ∧
      settle convert languages (withEntries batches (entriesOf bundle)) results = .error f ∧
      ¬ ∀ output ∈ outputs.flatten, Complete convert languages output) ∨
    ∃ bs, settle convert languages (withEntries batches (entriesOf bundle)) results = .ok bs ∧
      (bs.length = languages.length ∧ ∀ b ∈ bs, b.keys.Sublist bundle.keys) ∧
      (Settled bundle languages (.ok bs) ↔
        ∀ output ∈ outputs.flatten, Complete convert languages output) := by
  have hsettle : settle convert languages (withEntries batches (entriesOf bundle)) results =
      match untilFault
          (messages convert languages (withEntries batches (entriesOf bundle)) outputs) with
      | (_, some e) => .error e
      | (done, none) => .ok (bundles languages done) := by
    rw [settle, hresults]
    rfl
  obtain ⟨hcount, hmessages⟩ := messages_eq convert languages htiling houtputs
  rw [hmessages] at hsettle
  cases htexts : outputs.flatten.mapM (texts convert languages) with
  | error f =>
    obtain ⟨done, f', hread, hf'⟩ := untilFault_of_texts htexts hcount
    rw [hread] at hsettle
    exact .inl ⟨f', hf', hsettle, not_complete_of_texts htexts⟩
  | ok tss =>
    have hread := mapM_eq_ok_iff.mp htexts
    rw [translatedAll_of_texts hread, untilFault_ok] at hsettle
    have hlen := hcount.trans hread.length_eq
    have hrows := keys_zip hlen
    refine .inr ⟨_, hsettle, ⟨by simp [bundles], fun b hb => ?_⟩,
      (settled_bundles_iff hrows hkeys).trans (complete_all_iff hlanguages hread hlen)⟩
    have hb := List.mem_map_of_mem (f := Fields.keys) hb
    rw [keys_bundles (hrows ▸ hkeys)] at hb
    obtain ⟨n, -, hn⟩ := List.mem_map.mp hb
    rw [← hn, ← hrows]
    exact keysAt_sublist _ n

/-- Replies of which the first one without outputs for its batch refuses it, or that all hold
outputs with a translation in every language. -/
def Serves (m : Means) (languages : List Text) (replies : Batch → Reply)
    (batches : List Batch) : Prop :=
  (∃ before b after, batches = before ++ b :: after ∧
    (∀ c ∈ before, ∃ outputs, Answers m.nesting c outputs (replies c)) ∧
    Refuses m.nesting b (replies b)) ∨
  ∀ b ∈ batches, ∃ outputs, Answers m.nesting b outputs (replies b) ∧
    ∀ output ∈ outputs, Complete m.convert languages output

section Serving

variable {replies : Batch → Reply}

theorem serves_iff_of_error {f : Fault}
    (h : batches.mapM (fun b => outputsOf m.nesting b (replies b)) = .error f) :
    Serves m languages replies batches ↔ f.kind = "TranslationError" := by
  obtain ⟨before, b, after, hsplit, hb, hbefore⟩ := mapM_eq_error h
  constructor
  · rintro (⟨before', b', after', hsplit', hbefore', hrefuses⟩ | hall)
    · obtain ⟨f', hf', hkind⟩ := outputsOf_refused hrefuses
      have hfirst : (before' ++ b' :: after').mapM (fun b => outputsOf m.nesting b (replies b)) =
          .error f' :=
        mapM_error_of_first
          (fun c hc => (hbefore' c hc).imp fun outputs => outputsOf_eq_ok_iff.mpr) hf'
      rw [← hsplit', h] at hfirst
      rw [Except.error.inj hfirst, hkind]
    · obtain ⟨outputs, hanswers, -⟩ := hall b (by simp [hsplit])
      rw [outputsOf_eq_ok_iff.mpr hanswers] at hb
      cases hb
  · intro hkind
    exact .inl ⟨before, b, after, hsplit,
      fun c hc => (hbefore c hc).imp fun outputs => outputsOf_eq_ok_iff.mp,
      (outputsOf_error hb).2 hkind⟩

theorem serves_iff_of_ok
    (h : List.Forall₂ (fun b outs => outputsOf m.nesting b (replies b) = .ok outs) batches
      outputs) :
    Serves m languages replies batches ↔
      ∀ output ∈ outputs.flatten, Complete m.convert languages output := by
  have hall : (∀ b ∈ batches, ∃ outs, Answers m.nesting b outs (replies b) ∧
      ∀ output ∈ outs, Complete m.convert languages output) ↔
        ∀ outs ∈ outputs, ∀ output ∈ outs, Complete m.convert languages output := by
    refine forall_iff_of_forall₂ h fun b outs houts => ?_
    constructor
    · rintro ⟨outs', hanswers, hcomplete⟩
      have hsame := houts.symm.trans (outputsOf_eq_ok_iff.mpr hanswers)
      rwa [Except.ok.inj hsame]
    · exact fun hcomplete => ⟨outs, outputsOf_eq_ok_iff.mp houts, hcomplete⟩
  rw [List.forall_mem_flatten, ← hall]
  refine ⟨?_, .inr⟩
  rintro (⟨before, b, after, hsplit, -, hrefuses⟩ | hanswered)
  · obtain ⟨f, hf, -⟩ := outputsOf_refused hrefuses
    obtain ⟨outs, -, houts⟩ := exists_of_forall₂ h b (by simp [hsplit])
    rw [hf] at houts
    cases houts
  · exact hanswered

end Serving

/-- However a service replies to the requests of the batches, and whatever hypertext the converter
takes: a translation is refused or complete exactly if a message is too large or the replies serve.
Otherwise it fails in another way, or its bundles lack keys. -/
theorem translateBy_settled_iff (reply : Batch → Service) (m : Means) {s : AzureSettings}
    (hs : Usable s languages) (limits : Limits) (hlanguages : languages ≠ [])
    (hkeys : bundle.keys.Nodup) (htexts : ∀ e ∈ bundle, Bundle.HasText e.2) :
    let items := (entriesOf bundle).map Entry.item
    let batches := Batch.group limits languages.length items
    let result := (translateBy reply s limits bundle languages m).result
    (Settled bundle languages result ↔
      (∃ i ∈ items, limits.maxItemSize < i.text.length) ∨
        Serves m languages (replyTo reply s languages) batches) ∧
    (∀ f, result = .error f →
      f.kind ∈ kinds ∨ ∃ html r, m.convert html = .error r ∧ f = .rejected r) ∧
    ∀ bs, result = .ok bs →
      bs.length = languages.length ∧ ∀ b ∈ bs, b.keys.Sublist bundle.keys := by
  intro items batches result
  by_cases hlarge : ∃ i ∈ items, limits.maxItemSize < i.text.length
  · obtain ⟨item, hitem⟩ := Batch.ofItems_eq_error languages.length hlarge
    have hbundle : bundle ≠ [] := fun hnil => by simp [items, hnil, entriesOf] at hlarge
    have hresult : result = .error (.tooLarge item) :=
      congrArg Run.result (translateBy_tooLarge hbundle hlanguages htexts hitem)
    rw [hresult]
    refine ⟨iff_of_true rfl (.inl hlarge), fun f hf => .inl ?_, fun bs hbs => by cases hbs⟩
    obtain rfl := Except.error.inj hf
    simp [Fault.kind, kinds]
  have hbatches : Batch.ofItems limits languages.length items = .ok batches :=
    Batch.ofItems_eq_ok _ fun i hi => Int.not_lt.mp fun hsize => hlarge ⟨i, hi, hsize⟩
  have hresult : result = settle m.convert languages (withEntries batches (entriesOf bundle))
      (batches.map (outcome m.nesting reply s languages)) :=
    (translateBy_eq reply hs hlanguages htexts hbatches).2
  simp only [hlarge, false_or]
  cases houtcomes : (batches.map (outcome m.nesting reply s languages)).mapM id with
  | error f =>
    have hfault : result = .error f := by rw [hresult, settle, houtcomes]; rfl
    rw [List.mapM_map] at houtcomes
    obtain ⟨-, b, -, -, hb, -⟩ := mapM_eq_error houtcomes
    rw [hfault, serves_iff_of_error houtcomes]
    refine ⟨Iff.rfl, fun f' hf' => .inl ?_, fun bs hbs => by cases hbs⟩
    obtain rfl := Except.error.inj hf'
    exact (outputsOf_error hb).1
  | ok outputs =>
    have houts := houtcomes
    rw [List.mapM_map] at houts
    have houts := mapM_eq_ok_iff.mp houts
    have hcounts : List.Forall₂ (fun b outs => outs.length = b.items.length) batches outputs := by
      refine houts.imp fun b outs hanswers => ?_
      obtain ⟨-, -, -, -, -, hlen⟩ := outputsOf_eq_ok_iff.mp hanswers
      exact hlen
    rw [hresult, serves_iff_of_ok houts]
    rcases settle_cases hlanguages hkeys (Batch.group_tiling limits languages.length items) hcounts
      houtcomes with ⟨f, houtput, hfault, hincomplete⟩ | ⟨bs, hbs, hsublists, hsettled⟩
    · rw [hfault]
      refine ⟨iff_of_false houtput.kind_ne hincomplete, fun f' hf' => ?_,
        fun bs hbs => by cases hbs⟩
      obtain rfl := Except.error.inj hf'
      exact houtput.cases
    · rw [hbs]
      refine ⟨hsettled, fun f hf => (by cases hf), fun bs' hbs' => ?_⟩
      obtain rfl := Except.ok.inj hbs'
      exact hsublists

/-- One message for one language. A reply that is no data, one that is no text, and one whose output
holds no translation leave the translation neither refused nor complete. It is complete once the
output holds one, in whatever encoding. -/
theorem translateBy_settled_iff_replies :
    let bundle : Bundle := [("a", .string "Hello")]
    let languages : List Text := [Text.ofString "de"]
    let limits : Limits := { maxItemSize := (sent "Hello").length }
    let result (body : List UInt8) := (translate (fun _ => .response 200 body)
      { key := "key", region := "westeurope" } limits bundle languages).result
    let hallo := "[\x7b\"translations\": [\x7b\"text\": \"Hallo\"\x7d]\x7d]".toList
    ¬ Settled bundle languages (result (Utf8.encode "plain text".toList)) ∧
      ¬ Settled bundle languages (result [0xFF]) ∧
      ¬ Settled bundle languages
        (result (Utf8.encode "[\x7b\"translations\": []\x7d]".toList)) ∧
      Settled bundle languages (result (Utf8.encode hallo)) ∧
      Settled bundle languages
        (result (0xFF :: 0xFE :: hallo.flatMap fun c => [.ofNat c.toNat, 0])) := by
  intro bundle languages limits result hallo
  have hs : Usable { key := "key", region := "westeurope" } languages :=
    ⟨by decide +kernel, by decide, by decide, by decide⟩
  have htexts : ∀ e ∈ bundle, Bundle.HasText e.2 := by
    intro e he
    obtain rfl := List.mem_singleton.mp he
    exact ⟨"Hello".toList, rfl⟩
  let b : Batch := ⟨1, [⟨"a", sent "Hello"⟩], Batch.itemSize 1 ⟨"a", sent "Hello"⟩, 0⟩
  have hsmall : ¬ ∃ i ∈ [Item.mk "a" (sent "Hello")], limits.maxItemSize < i.text.length := by
    simp [limits]
  have hserves : ∀ body, Settled bundle languages (result body) ↔
      Serves {} languages (fun _ => .response 200 body) [b] := by
    intro body
    have hiff := (translateBy_settled_iff (fun _ _ => .response 200 body) {} hs limits
      (by simp [languages]) (by decide) htexts).1
    exact hiff.trans (or_iff_right hsmall)
  have hfault : ∀ {body f}, Json.ofBytes body = .error f →
      ¬ Settled bundle languages (result body) := by
    intro body f hread hsettled
    have hfault : [b].mapM (fun b => outputsOf Json.usualNesting b (.response 200 body)) =
        .error (.unreadable f) := by
      simp [outputsOf, hread, bind, Except.bind]
    have hkind := (serves_iff_of_error (m := {}) hfault).mp ((hserves body).mp hsettled)
    exact (kind_of_unreadable f).2 hkind
  have hread : ∀ {body output}, Json.ofBytes body = .ok (.array [output]) →
      (Settled bundle languages (result body) ↔ Complete .markdown languages output) := by
    intro body output hparse
    have hanswered : outputsOf Json.usualNesting b (.response 200 body) = .ok [output] :=
      outputsOf_eq_ok_iff.mpr ⟨_, _, rfl, hparse, rfl, rfl⟩
    rw [hserves, serves_iff_of_ok (m := {}) (.cons hanswered .nil)]
    simp
  have hcomplete : Complete .markdown languages (.object [("translations",
      .array [.object [("text", .string "Hallo")]])]) :=
    ⟨_, rfl, by decide, by simpa [languages] using ⟨_, rfl, _, rfl⟩⟩
  refine ⟨hfault (f := .content .value) (by decide +kernel),
    hfault (f := .encoding) (by decide +kernel), fun h => ?_,
    (hread (by simp only [hallo]; decide +kernel)).mpr hcomplete,
    (hread (by simp only [hallo]; decide +kernel)).mpr hcomplete⟩
  have hempty : Complete .markdown languages (.object [("translations", .array [])]) :=
    (hread (by decide +kernel)).mp h
  obtain ⟨targets, htargets, hlen, -⟩ := hempty
  cases htargets
  exact absurd hlen (by decide)

end Settling

end Azure

end Localization.Provider
