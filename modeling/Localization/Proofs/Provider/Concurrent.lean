import Localization.Proofs.Provider.Pool
import Localization.Proofs.Provider.Settled
import Localization.Proofs.Translation

/-! Translations whose requests are under way at once. Whatever is sent and answered when, both
providers send every request once, and a translation that fails does so with the first fault in the
order of the requests, not in that of the answers. -/

namespace Localization.Provider

section Faults

variable {ε α : Type} {xs : List (Except ε α)} {e : ε}

/-- The first of some outcomes that is a fault. -/
def FirstFault (xs : List (Except ε α)) (e : ε) : Prop :=
  ∃ before after, xs = before ++ .error e :: after ∧ ∀ x ∈ before, ∃ a, x = .ok a

theorem mapM_id_eq_error_iff : xs.mapM id = .error e ↔ FirstFault xs e := by
  constructor
  · intro h
    obtain ⟨before, x, after, hsplit, hx, hbefore⟩ := mapM_eq_error h
    obtain rfl : x = .error e := hx
    exact ⟨before, after, hsplit, hbefore⟩
  · rintro ⟨before, after, rfl, hbefore⟩
    exact mapM_error_of_first hbefore rfl

theorem exists_mapM_id (h : ∀ x ∈ xs, ∃ a, x = .ok a) : ∃ as, xs.mapM id = .ok as := by
  obtain ⟨as, has, -⟩ := mapM_forall₂ (R := fun _ _ => True) (g := id) fun x hx => by
    obtain ⟨a, ha⟩ := h x hx
    exact ⟨a, ha, trivial⟩
  exact ⟨as, has⟩

/-- What stands at all places in turn is the list itself. -/
theorem filterMap_range {β : Type} (g : α → Option β) (as : List α) :
    ((List.range as.length).filterMap fun i => as[i]?.bind g) = as.filterMap g := by
  induction as with
  | nil => rfl
  | cons a as ih =>
    rw [List.length_cons, List.range_succ_eq_map, List.filterMap_cons, List.filterMap_map,
      List.filterMap_cons]
    simp only [List.getElem?_cons_zero, Option.bind_some, ← ih]
    rfl

end Faults

/-! Rounds of requests. -/

section Rounds

variable {ε α : Type} {limit : Nat} {plan : List (List (Except ε α))}
  {ps : List (Pool (Except ε α))} {r : Except ε (List (List α))}

/-- Pools of requests one after another. The next one starts only if no request of the one before
has come to a fault; the first fault in the order of the requests is the result. -/
inductive Rounds (limit : Nat) :
    List (List (Except ε α)) → List (Pool (Except ε α)) → Except ε (List (List α)) → Prop
  | done : Rounds limit [] [] (.ok [])
  | failed {outcomes : List (Except ε α)} {rest : List (List (Except ε α))} {p : Pool (Except ε α)}
    {e : ε} (hends : Pool.Ends limit outcomes p) (hfault : p.answers.mapM id = .error e) :
    Rounds limit (outcomes :: rest) [p] (.error e)
  | next {outcomes : List (Except ε α)} {rest : List (List (Except ε α))} {p : Pool (Except ε α)}
    {as : List α} {ps : List (Pool (Except ε α))} {r : Except ε (List (List α))}
    (hends : Pool.Ends limit outcomes p) (has : p.answers.mapM id = .ok as)
    (hrest : Rounds limit rest ps r) :
    Rounds limit (outcomes :: rest) (p :: ps) (r.map (as :: ·))

theorem Pool.exists_ends (limit : Nat) (outcomes : List (Except ε α)) :
    ∃ p, Pool.Ends limit outcomes p :=
  Pool.exists_stuck limit outcomes (Pool.start outcomes.length)

theorem exists_rounds (limit : Nat) (plan : List (List (Except ε α))) :
    ∃ ps r, Rounds limit plan ps r := by
  induction plan with
  | nil => exact ⟨[], .ok [], .done⟩
  | cons outcomes rest ih =>
    obtain ⟨p, hp⟩ := Pool.exists_ends limit outcomes
    obtain ⟨ps, r, hrest⟩ := ih
    cases hanswers : p.answers.mapM id with
    | error e => exact ⟨[p], .error e, .failed hp hanswers⟩
    | ok as => exact ⟨p :: ps, _, .next hp hanswers hrest⟩

namespace Rounds

/-- The result does not depend on what happened when. -/
theorem result_eq (hlimit : 0 < limit) (h : Rounds limit plan ps r) :
    r = plan.mapM (List.mapM id) := by
  induction h with
  | done => rfl
  | failed hends hfault =>
    rw [hends.answers_eq hlimit] at hfault
    rw [List.mapM_cons, hfault]
    rfl
  | @next outcomes rest p as ps r hends has hrest ih =>
    rw [hends.answers_eq hlimit] at has
    rw [List.mapM_cons, has, ih]
    cases rest.mapM (List.mapM id) with
    | error e => rfl
    | ok ass => rfl

/-- In every round every request is sent once. -/
theorem sent_perm (hlimit : 0 < limit) (h : Rounds limit plan ps r) {n : Nat}
    (hplan : ∀ outcomes ∈ plan, outcomes.length = n) : ∀ p ∈ ps, p.sent.Perm (List.range n) := by
  induction h with
  | done => simp
  | failed hends hfault =>
    rw [List.forall_mem_cons] at hplan
    simpa using hplan.1 ▸ hends.sent_perm hlimit
  | next hends has hrest ih =>
    rw [List.forall_mem_cons] at hplan
    exact List.forall_mem_cons.mpr ⟨hplan.1 ▸ hends.sent_perm hlimit, ih hplan.2⟩

/-- The first round with a fault is the last one. -/
theorem of_fault (hlimit : 0 < limit) {before after : List (List (Except ε α))}
    {outcomes : List (Except ε α)} {e : ε} (h : Rounds limit (before ++ outcomes :: after) ps r)
    (hbefore : ∀ xs ∈ before, ∀ x ∈ xs, ∃ a, x = .ok a) (hfirst : FirstFault outcomes e) :
    r = .error e ∧ ps.length = before.length + 1 := by
  have hfirst := mapM_id_eq_error_iff.mpr hfirst
  induction before generalizing ps r with
  | nil =>
    cases h with
    | failed hends hfault =>
      rw [hends.answers_eq hlimit, hfirst] at hfault
      exact ⟨by rw [Except.error.inj hfault], rfl⟩
    | next hends has hrest =>
      rw [hends.answers_eq hlimit, hfirst] at has
      cases has
  | cons xs before ih =>
    rw [List.forall_mem_cons] at hbefore
    cases h with
    | failed hends hfault =>
      obtain ⟨as, has⟩ := exists_mapM_id hbefore.1
      rw [hends.answers_eq hlimit, has] at hfault
      cases hfault
    | next hends has hrest =>
      obtain ⟨rfl, hlen⟩ := ih hrest hbefore.2
      exact ⟨rfl, by rw [List.length_cons, hlen, List.length_cons]⟩

/-- Without a fault there is a round for every list of outcomes. -/
theorem length_eq (hlimit : 0 < limit) (h : Rounds limit plan ps r)
    (hplan : ∀ xs ∈ plan, ∀ x ∈ xs, ∃ a, x = .ok a) : ps.length = plan.length := by
  induction h with
  | done => rfl
  | failed hends hfault =>
    obtain ⟨as, has⟩ := exists_mapM_id (hplan _ (List.mem_cons_self ..))
    rw [hends.answers_eq hlimit, has] at hfault
    cases hfault
  | next hends has hrest ih =>
    rw [List.length_cons, List.length_cons, ih (List.forall_mem_cons.mp hplan).2]

end Rounds

end Rounds

namespace Azure

variable {reply : Batch → Service} {s : AzureSettings} {languages : List Text} {limits : Limits}
  {bundle : Bundle} {batches : List Batch} {p : Pool (Except Fault (List Json))} {m : Means}

/-- The requests for batches in the order of sending. -/
def sentRequests (s : AzureSettings) (languages : List Text) (batches : List Batch)
    (p : Pool (Except Fault (List Json))) : List Request :=
  p.sent.filterMap fun i => batches[i]?.bind fun b => some (request s languages b)

section Translating

variable (hs : Usable s languages) (hlanguages : languages ≠ [])
  (htexts : ∀ e ∈ bundle, Bundle.HasText e.2)
  (hbatches : Batch.ofItems limits languages.length ((entriesOf bundle).map Entry.item) =
    .ok batches)

include hs hlanguages htexts hbatches

/-- However the requests for the batches are sent and answered, the answers settle the
translation. -/
theorem result_of_ends
    (hp : Pool.Ends s.maxConcurrency.toNat (batches.map (outcome m.nesting reply s languages)) p) :
    p.sent.Perm (List.range batches.length) ∧
      (sentRequests s languages batches p).Perm
        (translateBy reply s limits bundle languages m).requests ∧
      (translateBy reply s limits bundle languages m).result =
        settle m.convert languages (withEntries batches (entriesOf bundle)) p.answers := by
  have hlimit : 0 < s.maxConcurrency.toNat := by have := hs.concurrency; omega
  have hperm := hp.sent_perm hlimit
  rw [List.length_map] at hperm
  obtain ⟨hrequests, hresult⟩ := translateBy_eq reply hs hlanguages htexts hbatches
  refine ⟨hperm, ?_, by rw [hresult, hp.answers_eq hlimit]⟩
  rw [hrequests, ← List.filterMap_eq_map, ← filterMap_range]
  exact hperm.filterMap _

/-- The fault of the first batch that fails is that of the translation. -/
theorem result_of_fault {f : Fault}
    (hf : FirstFault (batches.map (outcome m.nesting reply s languages)) f) :
    (translateBy reply s limits bundle languages m).result = .error f := by
  rw [(translateBy_eq reply hs hlanguages htexts hbatches).2, settle,
    mapM_id_eq_error_iff.mpr hf]
  rfl

end Translating

end Azure

namespace Aws

variable {convert : Converter} {reply : Nat → Nat → Service} {s : AwsSettings}
  {languages : List Text} {entries : List Entry}

/-- The outcomes for entries, language by language. -/
def plan (convert : Converter) (reply : Nat → Nat → Service) (s : AwsSettings)
    (entries : List Entry) (languages : List Text) : List (List (Except Fault Translated)) :=
  languages.mapIdx fun n language => outcomes convert (reply n) s language entries

/-- The bundle of translated messages. -/
def bundleOf (done : List Translated) : Fields Text :=
  Fields.ofList (done.map fun t => (t.entry.key, t.text))

theorem plan_cons (language : Text) (languages : List Text) :
    plan convert reply s entries (language :: languages) =
      outcomes convert (reply 0) s language entries ::
        plan convert (fun n => reply (n + 1)) s entries languages := by
  rw [plan, List.mapIdx_cons]
  rfl

theorem translateEntries_result_eq :
    (translateEntries convert reply s entries languages).result =
      ((plan convert reply s entries languages).mapM (List.mapM id)).map (List.map bundleOf) := by
  induction languages generalizing reply with
  | nil => rfl
  | cons language languages ih =>
    rw [plan_cons, List.mapM_cons, translateEntries]
    cases (outcomes convert (reply 0) s language entries).mapM id with
    | error f => rfl
    | ok done =>
      simp only [ih]
      cases (plan convert (fun n => reply (n + 1)) s entries languages).mapM (List.mapM id) with
      | error f => rfl
      | ok more => rfl

/-- The requests for entries, in the order of sending in each round. -/
def sentRequests (s : AwsSettings) (entries : List Entry) (languages : List Text)
    (ps : List (Pool (Except Fault Translated))) : List Request :=
  (languages.zip ps).flatMap fun (language, p) =>
    p.sent.filterMap fun i => entries[i]?.bind (requestOf s language)

theorem sentRequests_perm (hlimit : 0 < s.maxConcurrency.toNat)
    {ps : List (Pool (Except Fault Translated))} {r : Except Fault (List (List Translated))}
    (h : Rounds s.maxConcurrency.toNat (plan convert reply s entries languages) ps r) :
    (sentRequests s entries languages ps).Perm
      (translateEntries convert reply s entries languages).requests := by
  induction languages generalizing reply ps r with
  | nil =>
    cases h
    exact .nil
  | cons language languages ih =>
    rw [plan_cons] at h
    have hround : ∀ {p}, Pool.Ends s.maxConcurrency.toNat
        (outcomes convert (reply 0) s language entries) p →
        (p.sent.filterMap fun i => entries[i]?.bind (requestOf s language)).Perm
          (entries.filterMap (requestOf s language)) := by
      intro p hp
      have hperm := hp.sent_perm hlimit
      rw [outcomes, List.length_mapIdx] at hperm
      rw [← filterMap_range (requestOf s language) entries]
      exact hperm.filterMap _
    cases h with
    | failed hends hfault =>
      rw [hends.answers_eq hlimit] at hfault
      rw [translateEntries, hfault]
      simpa [sentRequests] using hround hends
    | next hends has hrest =>
      rw [hends.answers_eq hlimit] at has
      rw [translateEntries, has]
      exact (hround hends).append (ih hrest)

end Aws

/-- Whatever each request comes to, and whatever is sent and answered when. The provider of batches
sends every batch once, and its result is that of the answers in the order of the batches, so that
the first batch that fails decides. The provider of documents sends every document of a language
once, and goes on to the next language only if none has failed, so that the first document of the
first language that fails decides. -/
theorem translate_in_any_order (m : Means) {bundle : Bundle} {languages : List Text}
    (htexts : ∀ e ∈ bundle, Bundle.HasText e.2)
    {s : AzureSettings} (hs : Azure.Usable s languages)
    {t : AwsSettings} {env : Option Environment} (ht : Aws.Usable t env) :
    (∀ (reply : Batch → Azure.Service) (limits : Limits) (batches : List Batch), languages ≠ [] →
      Batch.ofItems limits languages.length ((entriesOf bundle).map Entry.item) = .ok batches →
      let outcomes := batches.map (Azure.outcome m.nesting reply s languages)
      let run := Azure.translateBy reply s limits bundle languages m
      (∃ p, Pool.Ends s.maxConcurrency.toNat outcomes p) ∧
      (∀ p, Pool.Ends s.maxConcurrency.toNat outcomes p →
        p.sent.Perm (List.range batches.length) ∧
        (Azure.sentRequests s languages batches p).Perm run.requests ∧
        run.result =
          Azure.settle m.convert languages (Azure.withEntries batches (entriesOf bundle))
            p.answers) ∧
      ∀ f, FirstFault outcomes f → run.result = .error f) ∧
    ∀ reply : Nat → Nat → Aws.Service,
      let plan := Aws.plan m.convert reply t (entriesOf bundle) languages
      let run := (Aws.translateBy reply t env bundle languages m).1
      (∃ ps r, Rounds t.maxConcurrency.toNat plan ps r) ∧
      ∀ ps r, Rounds t.maxConcurrency.toNat plan ps r →
        (∀ p ∈ ps, p.sent.Perm (List.range bundle.length)) ∧
        (Aws.sentRequests t (entriesOf bundle) languages ps).Perm run.requests ∧
        run.result = r.map (List.map Aws.bundleOf) ∧
        ((∀ outcomes ∈ plan, ∀ x ∈ outcomes, ∃ a, x = .ok a) → ps.length = languages.length) ∧
        ∀ before outcomes after f, plan = before ++ outcomes :: after →
          (∀ xs ∈ before, ∀ x ∈ xs, ∃ a, x = .ok a) → FirstFault outcomes f →
          run.result = .error f ∧ ps.length = before.length + 1 := by
  constructor
  · intro reply limits batches hlanguages hbatches outcomes run
    exact ⟨Pool.exists_ends _ _,
      fun p hp => Azure.result_of_ends hs hlanguages htexts hbatches hp,
      fun f hf => Azure.result_of_fault hs hlanguages htexts hbatches hf⟩
  · intro reply plan run
    have hlimit : 0 < t.maxConcurrency.toNat := by have := ht.concurrency; omega
    obtain ⟨hrequests, hentries⟩ := Aws.translateBy_eq reply ht languages htexts m
    have hcount : ∀ outcomes ∈ plan, outcomes.length = bundle.length := by
      intro outcomes houtcomes
      obtain ⟨n, hn, rfl⟩ := List.mem_mapIdx.mp houtcomes
      simp [Aws.outcomes, entriesOf]
    refine ⟨exists_rounds _ _, fun ps r h => ?_⟩
    have hresult : run.result = r.map (List.map Aws.bundleOf) := by
      rw [hentries, Aws.translateEntries_result_eq, h.result_eq hlimit]
    refine ⟨h.sent_perm hlimit hcount, hrequests ▸ Aws.sentRequests_perm hlimit h, hresult,
      fun hplan => ?_, fun before outcomes after f hsplit hbefore hf => ?_⟩
    · exact (h.length_eq hlimit hplan).trans List.length_mapIdx
    · rw [hsplit] at h
      obtain ⟨rfl, hlen⟩ := h.of_fault hlimit hbefore hf
      exact ⟨hresult, hlen⟩

/-- Three messages for three languages, each message in a batch of its own. All batches but the
first one fail, and so do all documents but the first one in all languages but the first one. -/
theorem translate_in_any_order_failing :
    let bundle : Bundle := [("a", .string "Open"), ("b", .string "Save"), ("c", .string "Quit")]
    let languages : List Text := [Text.ofString "fr", Text.ofString "de", Text.ofString "it"]
    let limits : Limits :=
      { maxItemSize := (sent "Open").length + (sent "Save").length + (sent "Quit").length,
        maxItems := 1 }
    let azure : Batch → Azure.Service := fun b _ =>
      if b.number = 1 then .answer 200 "[1]".toList
      else .unreachable (if b.number = 2 then "second" else "third")
    let aws : Nat → Nat → Aws.Service := fun n i _ =>
      if n = 0 ∨ i = 0 then .ok [] else .error (.unreachable (if i = 1 then "second" else "third"))
    (Azure.translateBy azure { key := "key", region := "westeurope" } limits bundle
        languages).result = .error (.refused "second") ∧
      (Aws.translateBy aws {} none bundle languages).1.result =
        .error (.refused (Aws.Refusal.unreachable "second").message) ∧
      ∃ ps r, Rounds 8 (Aws.plan .markdown aws {} (entriesOf bundle) languages) ps r ∧ ps.length = 2 := by
  intro bundle languages limits azure aws
  have htexts : ∀ e ∈ bundle, Bundle.HasText e.2 := by
    simp only [bundle, List.forall_mem_cons]
    exact ⟨⟨"Open".toList, rfl⟩, ⟨"Save".toList, rfl⟩, ⟨"Quit".toList, rfl⟩, by simp⟩
  have hs : Azure.Usable { key := "key", region := "westeurope" } languages :=
    ⟨by decide +kernel, by decide, by decide, by decide⟩
  have ht : Aws.Usable {} none := ⟨.inl rfl, by decide⟩
  obtain ⟨hazure, haws⟩ := translate_in_any_order {} htexts hs ht
  have hsmall : ∀ i ∈ (entriesOf bundle).map Entry.item,
      (i.text.length : Int) ≤ limits.maxItemSize := by
    show ∀ i ∈ [Item.mk "a" (sent "Open"), ⟨"b", sent "Save"⟩, ⟨"c", sent "Quit"⟩], _
    simp only [List.forall_mem_cons, limits]
    refine ⟨by omega, by omega, by omega, by simp⟩
  obtain ⟨-, -, hfirst⟩ :=
    hazure azure limits _ (by simp [languages]) (Batch.ofItems_eq_ok languages.length hsmall)
  obtain ⟨⟨ps, r, hrounds⟩, hall⟩ := haws aws
  obtain ⟨-, -, -, -, hfault⟩ := hall ps r hrounds
  have hgroup : ∃ i j k, Batch.group limits languages.length ((entriesOf bundle).map Entry.item) =
      [⟨1, [⟨"a", sent "Open"⟩], i, 0⟩, ⟨2, [⟨"b", sent "Save"⟩], j, 1⟩,
        ⟨3, [⟨"c", sent "Quit"⟩], k, 2⟩] := by
    show ∃ i j k, Batch.group limits languages.length
      [⟨"a", sent "Open"⟩, ⟨"b", sent "Save"⟩, ⟨"c", sent "Quit"⟩] = _
    simp [Batch.group, Batch.fill, Batch.single, Batch.admits, Batch.stop, limits]
  obtain ⟨i, j, k, hgroup⟩ := hgroup
  have hread : ∀ x ∈ Aws.outcomes .markdown (aws 0) {} "fr" (entriesOf bundle), ∃ a, x = .ok a := by
    rw [show Aws.outcomes .markdown (aws 0) {} "fr" (entriesOf bundle) = [.ok _, .ok _, .ok _] from rfl]
    simp
  obtain ⟨hresult, hlen⟩ := hfault [_] _ [_] _ rfl (List.forall_mem_singleton.mpr hread)
    ⟨[_], [_], rfl, List.forall_mem_singleton.mpr ⟨_, rfl⟩⟩
  refine ⟨hfirst _ ?_, hresult, ps, r, hrounds, hlen⟩
  rw [hgroup]
  refine ⟨[_], [_], rfl, List.forall_mem_singleton.mpr ⟨[.integer 1], ?_⟩⟩
  have hparse : Json.ofBytes (Utf8.encode "[1]".toList) = .ok (.array [.integer 1]) := by
    decide +kernel
  exact Azure.outputsOf_eq_ok_iff.mpr ⟨_, _, rfl, hparse, rfl, rfl⟩

end Localization.Provider
