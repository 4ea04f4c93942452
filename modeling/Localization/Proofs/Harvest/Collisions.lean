import Localization.Proofs.Harvest
import Localization.Proofs.Result
import Localization.Proofs.Script.Reordered

/-! Collisions of keys: what is noticed about the bundles of several scripts is each key that an
earlier bundle has for a message without comments, and nothing else. -/

namespace Localization

/-- The notices of one level, neither below nor above it. -/
def Notice.ofLevel (l : Level) (ns : List Notice) : List Notice := ns.filter fun n => n.level = l

theorem Notice.ofLevel_append (l : Level) (ms ns : List Notice) :
    Notice.ofLevel l (ms ++ ns) = Notice.ofLevel l ms ++ Notice.ofLevel l ns := List.filter_append ..

namespace Bundle

/-- Whether a bundle has a message without comments at a key. -/
def plainAt (k : Text) (b : Bundle) : Bool := ((b.get? k).bind message?).any (·.comments.isEmpty)

/-- The keys of bundles that some earlier bundle has for a message without comments: bundle by
bundle, and those of one bundle in its order. -/
def collisions (bundles : List Bundle) : List Text :=
  bundles.zipIdx.flatMap fun (b, n) => b.keys.filter fun k => (bundles.take n).any (plainAt k)

/-- The collisions in `later`, with each other and with the bundles before. -/
def collisionsAfter (earlier later : List Bundle) : List Text :=
  (later.zipIdx earlier.length).flatMap fun (b, n) =>
    b.keys.filter fun k => ((earlier ++ later).take n).any (plainAt k)

theorem collisionsAfter_cons (earlier later : List Bundle) (b : Bundle) :
    collisionsAfter earlier (b :: later) =
      b.keys.filter (fun k => earlier.any (plainAt k)) ++ collisionsAfter (earlier ++ [b]) later := by
  simp [collisionsAfter, List.zipIdx_cons]

theorem isPlain_value (m : Message) : isPlain m.value = m.comments.isEmpty := by
  obtain ⟨t, cs⟩ := m
  cases cs <;> simp [isPlain, commentOf, Message.value, Json.field?, Fields.get?, Json.isPresent,
    message_ne_comment]

theorem plainAt_cons (k : Text) (m : Message) (rest : Bundle) :
    plainAt k (m.entry :: rest) =
      if m.key = k then m.comments.isEmpty else plainAt k rest := by
  by_cases hk : m.key = k <;> simp [plainAt, Message.entry, Fields.get?, hk]

theorem not_plainAt_of_not_mem {k : Text} {b : Bundle} (h : k ∉ b.keys) : plainAt k b = false := by
  simp [plainAt, Fields.get?_of_not_mem h]

/-- A key is noted if it has been seen before. As the keys are distinct, those of the bundle itself
do not matter for that. -/
theorem collide_noted {b : Bundle} (hkeys : b.keys.Nodup) (seen : List Text) :
    (collide seen b).1 = b.keys.filter (· ∈ seen) := by
  induction b generalizing seen with
  | nil => rfl
  | cons e rest ih =>
    obtain ⟨k, v⟩ := e
    rw [Fields.keys_cons, List.nodup_cons] at hkeys
    obtain ⟨hnew, hkeys⟩ := hkeys
    by_cases hk : k ∈ seen
    · simp [collide, hk, ih hkeys]
    · have hrest : (Fields.keys rest).filter (· ∈ k :: seen) =
          (Fields.keys rest).filter (· ∈ seen) := by
        refine List.filter_congr fun key hkey => ?_
        have hne : key ≠ k := fun h => hnew (h ▸ hkey)
        simp [hne]
      cases hplain : isPlain v with
      | false => simp [collide, hk, hplain, ih hkeys]
      | true => simpa [collide, hk, hplain, ih hkeys] using hrest

/-- The key of a message without comments has been seen after it, if it was not before. -/
theorem collide_seen_cons (seen : List Text) (m : Message) (rest : Bundle) :
    (collide seen (m.entry :: rest)).2 =
      (collide (if m.key ∉ seen ∧ m.comments.isEmpty then m.key :: seen else seen) rest).2 := by
  rw [Message.entry, collide, isPlain_value]
  by_cases hm : m.key ∈ seen <;> simp [hm]

/-- After a bundle the keys of its messages without comments have been seen, too. -/
theorem mem_collide_seen {b : Bundle} (hb : ∀ e ∈ b, ∃ m, Message.entry m = e)
    (hkeys : b.keys.Nodup) (seen : List Text) (k : Text) :
    k ∈ (collide seen b).2 ↔ k ∈ seen ∨ plainAt k b = true := by
  induction b generalizing seen with
  | nil => simp [collide, plainAt]
  | cons e rest ih =>
    obtain ⟨m, rfl⟩ := hb e List.mem_cons_self
    rw [Fields.keys_cons, List.nodup_cons] at hkeys
    rw [collide_seen_cons, ih (fun e he => hb e (List.mem_cons_of_mem _ he)) hkeys.2, plainAt_cons]
    by_cases hk : m.key = k
    · subst hk
      have hnone : plainAt m.key rest = false := not_plainAt_of_not_mem hkeys.1
      by_cases hm : m.key ∈ seen <;> cases hplain : m.comments.isEmpty <;> simp [hnone, hm]
    · have hne : k ≠ m.key := Ne.symm hk
      split <;> simp [hne]

end Bundle

namespace Script

theorem nodup_keys_collect (ms : List Message) : (collect [] ms).1.keys.Nodup := by
  rw [collect_eq, ← Fields.ofList]
  exact Fields.nodup_keys_ofList _

theorem nodup_keys_analyze {o : Options} {s : Source} {a : Analysis} (h : analyze o s = .ok a) :
    a.bundle.keys.Nodup := by
  unfold analyze at h
  obtain ⟨d, -, h⟩ := bind_eq_ok_iff.mp h
  split at h
  · cases h
    exact List.nodup_nil
  · cases h
    unfold analyzeTree
    dsimp only
    split
    · exact List.nodup_nil
    · exact nodup_keys_collect _

/-- What is told of one analysis is of the lowest level. -/
theorem ofLevel_info_notices (strict : Bool) (used : List Dialect) (s : Source) (a : Analysis) :
    Notice.ofLevel .info (notices strict used s a).1 = [] := by
  unfold notices
  split
  · rfl
  split
  · rfl
  simp only [Notice.ofLevel_append, List.append_eq_nil_iff]
  refine ⟨⟨?_, ?_⟩, ?_⟩
  · split <;> rfl
  · split <;> rfl
  · split
    · rfl
    · simp [Notice.ofLevel, repeatedNotice]

theorem ofLevel_info_collisions (keys : List Text) :
    Notice.ofLevel .info (keys.map collisionNotice) = keys.map collisionNotice := by
  rw [Notice.ofLevel, List.filter_eq_self]
  simp [collisionNotice]

/-- What is told of the scripts that are left are the collisions in their bundles, provided that the
keys seen so far are those of messages without comments in the bundles so far. -/
theorem harvestFrom_collisions {o : Options} {scripts : List Source} {found : Harvest} {b : Bundle}
    (hseen : ∀ k, k ∈ found.seen ↔ found.bundles.reverse.any (Bundle.plainAt k) = true)
    (h : (harvestFrom o found scripts).1 = .ok b) :
    ∃ bundles, List.Forall₂ (fun s c => ∃ a, analyze o s = .ok a ∧ a.outcome = .ok c)
      scripts bundles ∧
      Notice.ofLevel .info (harvestFrom o found scripts).2 = Notice.ofLevel .info found.notices ++
        (Bundle.collisionsAfter found.bundles.reverse bundles).map collisionNotice := by
  induction scripts generalizing found with
  | nil => exact ⟨[], .nil, by simp [harvestFrom, Bundle.collisionsAfter]⟩
  | cons s rest ih =>
    rw [harvestFrom] at h ⊢
    cases ha : analyze o s with
    | error e => simp [ha] at h
    | ok a =>
      cases hc : a.outcome with
      | error f => simp [ha, hc] at h
      | ok c =>
        simp only [ha, hc] at h ⊢
        have hkeys : c.keys.Nodup := outcome_eq_ok hc ▸ nodup_keys_analyze ha
        have hentries := outcome_eq_ok hc ▸ analyze_entries ha
        have hnoted : (Bundle.collide found.seen c).1 =
            c.keys.filter fun k => found.bundles.reverse.any (Bundle.plainAt k) := by
          rw [Bundle.collide_noted hkeys]
          simp only [hseen, Bool.decide_eq_true]
        have hnext : ∀ k, k ∈ (Bundle.collide found.seen c).2 ↔
            (c :: found.bundles).reverse.any (Bundle.plainAt k) = true := by
          intro k
          rw [Bundle.mem_collide_seen hentries hkeys, hseen]
          simp
        obtain ⟨bundles, hbundles, hnotices⟩ := ih hnext h
        refine ⟨c :: bundles, .cons ⟨a, ha, hc⟩ hbundles, ?_⟩
        rw [hnotices, hnoted, List.reverse_cons, Bundle.collisionsAfter_cons, List.map_append,
          ← List.append_assoc]
        congr 1
        simp only [Notice.ofLevel_append, ofLevel_info_notices, ofLevel_info_collisions]
        simp [Notice.ofLevel, scriptNotice]

/-- The bundles of the scripts, one by one, have distinct keys; what is told of them, details apart,
is a notice for each of the keys of a bundle that an earlier one has for a message without
comments. -/
theorem harvest_collisions {o : Options} {scripts : List Source} {b : Bundle}
    (h : (harvest o scripts).1 = .ok b) :
    ∃ bundles, List.Forall₂ (fun s c => ∃ a, analyze o s = .ok a ∧ a.outcome = .ok c)
      scripts bundles ∧
      (∀ c ∈ bundles, c.keys.Nodup) ∧
      Notice.ofLevel .info (harvest o scripts).2 =
        (Bundle.collisions bundles).map collisionNotice := by
  obtain ⟨bundles, hbundles, hnotices⟩ := harvestFrom_collisions (by simp) h
  refine ⟨bundles, hbundles, fun c hc => ?_, ?_⟩
  · obtain ⟨s, -, a, ha, houtcome⟩ := exists_of_forall₂ hbundles.flip c hc
    exact outcome_eq_ok houtcome ▸ nodup_keys_analyze ha
  · rw [harvest, hnotices]
    simp [Bundle.collisions, Bundle.collisionsAfter, Notice.ofLevel]

/-- Two scripts have the message `a` with the comment `b`, and the one between them has the message
`a/b`. Only the last one is told of: nothing stood for the key `a/b` before the first script, and
before the second one only a message with a comment did. -/
theorem harvest_collisions_annotated :
    let plain : Source :=
      ⟨".ts".toList,
        "import \x7b t \x7d from '@vscode/l10n'; t('a/b'); // vscode l10n".toList, none⟩
    let annotated : Source :=
      ⟨".ts".toList, ("import * as vscode from 'vscode';" ++
        "vscode.l10n.t(\x7b message: 'a', comment: ['b'] \x7d);").toList, none⟩
    let told := Notice.ofLevel .info (harvest {} [annotated, plain, annotated]).2
    told.map Notice.text = [(collisionNotice "a/b").text] ∧
      ∃ bundles, bundles.length = 3 ∧ told = (Bundle.collisions bundles).map collisionNotice := by
  intro plain annotated told
  have hrun : (harvest {} [annotated, plain, annotated]).1.toOption.isSome = true ∧
      told.map Notice.text = [(collisionNotice "a/b").text] := by
    decide +kernel
  obtain ⟨hok, htold⟩ := hrun
  cases h : (harvest {} [annotated, plain, annotated]).1 with
  | error e =>
    rw [h] at hok
    cases hok
  | ok b =>
    obtain ⟨bundles, hbundles, -, hnotices⟩ := harvest_collisions h
    exact ⟨htold, bundles, hbundles.length_eq.symm, hnotices⟩

end Script

end Localization
