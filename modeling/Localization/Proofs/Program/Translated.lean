import Localization.Proofs.File.Found
import Localization.Proofs.Program.Failed
import Localization.Proofs.Program.Reads
import Localization.Proofs.Program.Writes
import Localization.Proofs.Translation

/-! Runs that translate bundles. Each bundle is read, translated and written in all its languages
before the next one is read, so a bundle that fails leaves the files of those before it. -/

namespace Localization

open FileTree (Written target)

/-- The path to a translation of the bundle at a place. -/
def Naming.beside (place : Place) (language : Text) : Path :=
  (Path.ofPlace place).parent ++
    Path.ofText (translatedName ((bundleName? (.ofPlace place)).getD []) language)

theorem Naming.translatedPath?_eq {place : Place} {name : Text}
    (h : bundleName? (.ofPlace place) = some name) (language : Text) :
    translatedPath? (.ofPlace place) language = some (beside place language) := by
  rw [translatedPath?, beside, h]
  rfl

namespace Commands

open Localization.Task

/-- Which bundles a command translates, into which languages, and how. A bundle that is translated
has messages in every language. -/
structure Job where
  paths : List Text
  languages : List Text
  translation : Bundle → Except Failure (List (Fields Text))
  length {b : Bundle} {bs : List (Fields Text)} (h : translation b = .ok bs) :
    bs.length = languages.length

def Job.pseudo (paths : List Text) (language : Text) : Job where
  paths
  languages := [language]
  translation b := ((Pseudo.bundle b).map fun b => [b]).mapError .shape
  length h := by
    obtain ⟨_, -, rfl⟩ := map_eq_ok_iff.mp (mapError_eq_ok_iff.mp h)
    rfl

def Job.azure (s : Surroundings) (paths languages : List Text) (settings : AzureSettings) :
    Job where
  paths
  languages
  translation b :=
    (Provider.Azure.translate s.azure settings {} b languages s.means).result.mapError .provider
  length h := Provider.Azure.length_of_translate (mapError_eq_ok_iff.mp h)

def Job.aws (s : Surroundings) (paths languages : List Text) (settings : AwsSettings) : Job where
  paths
  languages
  translation b :=
    (Provider.Aws.translate s.aws settings (some s.environment) b languages
      s.means).1.result.mapError .provider
  length h := Provider.Aws.length_of_translate (mapError_eq_ok_iff.mp h)

/-- The job of a command, or what is wrong with its settings; nothing if it translates no
bundles. -/
def job? (s : Surroundings) : CommandLine.Command → Option (Except SettingsError Job)
  | .pseudo paths language => some (.ok (.pseudo paths language))
  | .azure paths languages =>
    some ((AzureSettings.ofEnvironment s.environment).map (.azure s paths languages))
  | .aws paths languages settings => some (settings.checked.map (.aws s paths languages))
  | _ => none

namespace Job

variable {j : Job}

/-- What is written for a bundle that is translated. -/
def outputs (j : Job) (place : Place) (bs : List (Fields Text)) : List (Path × Text) :=
  (j.languages.zip bs).map fun o => (Naming.beside place o.1, (translatedData o.2).render)

/-- A bundle that is read, translated, and written in all languages. -/
def Finishes (j : Job) (t : FileTree) (place : Place) (ws : List (Place × List UInt8)) : Prop :=
  ∃ b bs, t.bundleAt place = .ok b ∧ j.translation b = .ok bs ∧
    List.Forall₂ PutBy (j.outputs place bs) ws

/-- How a bundle fails, and what has been written for it by then. -/
inductive Fails (j : Job) (t : FileTree) (place : Place) :
    Failure → List (Place × List UInt8) → Prop
  | unread {f : Failure} (hread : t.bundleAt place = .error f) : Fails j t place f []
  | untranslated {b : Bundle} {f : Failure} (hread : t.bundleAt place = .ok b)
    (htranslation : j.translation b = .error f) : Fails j t place f []
  | unwritten {b : Bundle} {bs : List (Fields Text)} {f : Failure} {ws : List (Place × List UInt8)}
    (hread : t.bundleAt place = .ok b) (htranslation : j.translation b = .ok bs)
    (hws : StopsAt (j.outputs place bs) f ws) : Fails j t place f ws

/-- Bundles that are finished one after another, each with the files that those before it leave. -/
inductive FinishesAll (j : Job) :
    List Place → List (Place × List UInt8) → FileTree → FileTree → Prop
  | nil (t : FileTree) : FinishesAll j [] [] t t
  | cons {place : Place} {places : List Place} {ws vs : List (Place × List UInt8)}
    {before middle after : FileTree} (hplace : j.Finishes before place ws)
    (hwritten : Written ws before middle) (hplaces : FinishesAll j places vs middle after) :
    FinishesAll j (place :: places) (ws ++ vs) before after

/-- A bundle that fails, with the bundles before it finished. -/
def FailsAmong (j : Job) (found : List Place) (f : Failure) (before after : FileTree)
    (done : List Place) (ws : List (Place × List UInt8)) : Prop :=
  ∃ place rest vs more middle, found = done ++ place :: rest ∧ j.FinishesAll done vs before middle ∧
    j.Fails middle place f more ∧ Written more middle after ∧ ws = vs ++ more

theorem FinishesAll.written {places : List Place} {ws : List (Place × List UInt8)}
    {before after : FileTree} (h : j.FinishesAll places ws before after) :
    Written ws before after := by
  induction h with
  | nil t => exact .of_files rfl
  | cons _ hwritten _ ih => exact hwritten.trans ih

theorem Finishes.exists_write {t : FileTree} {place : Place} {ws : List (Place × List UInt8)}
    (h : j.Finishes t place ws) {language : Text} (hlanguage : language ∈ j.languages) :
    ∃ w ∈ ws, w.1 = target [] (Naming.beside place language) := by
  obtain ⟨b, bs, -, hbs, hws⟩ := h
  have hzip : (j.languages.zip bs).map Prod.fst = j.languages :=
    List.map_fst_zip (j.length hbs).ge
  rw [← hzip] at hlanguage
  obtain ⟨o, ho, rfl⟩ := List.mem_map.mp hlanguage
  obtain ⟨w, hw, hput⟩ := exists_of_forall₂ hws _ (List.mem_map_of_mem ho)
  exact ⟨w, hw, hput.1⟩

/-- Every finished bundle has been written in every language. -/
theorem FinishesAll.exists_write {places : List Place} {ws : List (Place × List UInt8)}
    {before after : FileTree} (h : j.FinishesAll places ws before after) {place : Place}
    (hplace : place ∈ places) {language : Text} (hlanguage : language ∈ j.languages) :
    ∃ w ∈ ws, w.1 = target [] (Naming.beside place language) := by
  induction h with
  | nil t => cases hplace
  | cons hfirst _ _ ih =>
    rcases List.mem_cons.mp hplace with rfl | hplace
    · obtain ⟨w, hw, hput⟩ := hfirst.exists_write hlanguage
      exact ⟨w, List.mem_append_left _ hw, hput⟩
    · obtain ⟨w, hw, hput⟩ := ih hplace
      exact ⟨w, List.mem_append_right _ hw, hput⟩

theorem FailsAmong.written {found done : List Place} {f : Failure} {before after : FileTree}
    {ws : List (Place × List UInt8)} (h : j.FailsAmong found f before after done ws) :
    Written ws before after := by
  obtain ⟨place, rest, vs, more, middle, -, hdone, -, hmore, rfl⟩ := h
  exact hdone.written.trans hmore

theorem FailsAmong.isSome_of_mem {found done : List Place} {f : Failure} {before after : FileTree}
    {ws : List (Place × List UInt8)} (h : j.FailsAmong found f before after done ws)
    {place : Place} (hplace : place ∈ done) {language : Text} (hlanguage : language ∈ j.languages) :
    (after.contents? (target [] (Naming.beside place language))).isSome := by
  have hwritten := h.written
  obtain ⟨_, _, vs, more, middle, -, hdone, -, -, rfl⟩ := h
  obtain ⟨w, hw, hput⟩ := hdone.exists_write hplace hlanguage
  rw [← hput]
  exact hwritten.isSome_of_mem (List.mem_append_left _ hw)

/-- A first bundle that can be read and translated is finished, if what fails is no writing. -/
theorem FailsAmong.first_mem {place : Place} {places done : List Place} {f : Failure}
    {before after : FileTree} {ws : List (Place × List UInt8)}
    (h : j.FailsAmong (place :: places) f before after done ws) {b : Bundle}
    {bs : List (Fields Text)} (hread : before.bundleAt place = .ok b)
    (htranslation : j.translation b = .ok bs) (hwrite : ∀ p fault, f ≠ .write p fault)
    (hencodable : ∀ p, f ≠ .unencodable p) : place ∈ done := by
  obtain ⟨p, rest, vs, more, middle, hfound, hdone, hfails, -, -⟩ := h
  cases done with
  | cons q done =>
    obtain rfl := (List.cons.inj hfound).1
    exact List.mem_cons_self
  | nil =>
    obtain rfl := (List.cons.inj hfound).1
    cases hdone
    cases hfails with
    | unread hfault => cases hread.symm.trans hfault
    | untranslated hread' hfault =>
      obtain rfl := Except.ok.inj (hread.symm.trans hread')
      cases htranslation.symm.trans hfault
    | unwritten _ _ hws =>
      obtain ⟨_, o, _, _, _, -, -, hspoilt, -⟩ := hws
      cases hspoilt with
      | unopened fault => exact absurd rfl (hwrite _ fault)
      | unencodable ht => exact absurd rfl (hencodable _)

end Job

/-- What is done for one bundle. -/
def translateOne (languages : List Text) (translate : Bundle → Task (List (Fields Text)))
    (place : Place) : Task (List Path) := do
  let translated ← translate (← readBundle (Path.ofPlace place))
  (languages.zip translated).mapM fun (language, b) =>
    writeTranslated (Path.ofPlace place) language b

theorem translateEach_eq (languages : List Text) (translate : Bundle → Task (List (Fields Text)))
    (found : List Place) : translateEach languages translate found = do
      let outputs ← found.mapM (translateOne languages translate)
      return outputs.flatten := rfl

theorem writeTranslated_eq {place : Place} {name : Text}
    (h : Naming.bundleName? (.ofPlace place) = some name) (language : Text) (b : Fields Text) :
    writeTranslated (.ofPlace place) language b = do
      writeText (Naming.beside place language) (translatedData b).render
      return Naming.beside place language := by
  rw [writeTranslated, Naming.translatedPath?_eq h]
  rfl

section Running

variable {j : Job} {translate : Bundle → Task (List (Fields Text))}

theorem after_translateOne (htranslate : ∀ b, Reads (translate b) fun _ => j.translation b)
    {place : Place} (hname : ∃ name, Naming.bundleName? (.ofPlace place) = some name)
    (w : Workspace) :
    (∃ paths ws w', (translateOne j.languages translate place).after w = (.ok paths, w') ∧
        j.Finishes w.tree place ws ∧ Written ws w.tree w'.tree) ∨
      ∃ f ws w', (translateOne j.languages translate place).after w = (.error f, w') ∧
        j.Fails w.tree place f ws ∧ Written ws w.tree w'.tree := by
  obtain ⟨name, hname⟩ := hname
  unfold translateOne
  obtain ⟨f, w₁, hread, hafter, htree₁⟩ | ⟨b, w₁, hread, hafter, htree₁⟩ :=
    (Reads.readBundle place).after_bind _ w
  · exact .inr ⟨f, [], w₁, hafter, .unread hread, .of_files (by rw [htree₁])⟩
  simp only [hafter]
  obtain ⟨f, w₂, hbs, hafter, htree₂⟩ | ⟨bs, w₂, hbs, hafter, htree₂⟩ :=
    (htranslate b).after_bind _ w₁
  · exact .inr ⟨f, [], w₂, hafter, .untranslated hread hbs, .of_files (by rw [htree₂, htree₁])⟩
  rw [htree₁] at htree₂
  simp only [hafter]
  obtain ⟨ws, w₃, hafter, hws, hwritten⟩ | ⟨f, ws, w₃, hafter, hws, hwritten⟩ :=
    after_writeAll (fun o : Text × Fields Text =>
        (Naming.beside place o.1, (translatedData o.2).render))
      (fun o (_ : o ∈ j.languages.zip bs) => writeTranslated_eq hname o.1 o.2) w₂
  · exact .inl ⟨_, ws, w₃, hafter, ⟨b, bs, hread, hbs, hws⟩, htree₂ ▸ hwritten⟩
  · exact .inr ⟨f, ws, w₃, hafter, .unwritten hread hbs hws, htree₂ ▸ hwritten⟩

theorem after_translateAll (htranslate : ∀ b, Reads (translate b) fun _ => j.translation b)
    {found : List Place}
    (hnames : ∀ place ∈ found, ∃ name, Naming.bundleName? (.ofPlace place) = some name)
    (w : Workspace) :
    (∃ paths w' ws, (found.mapM (translateOne j.languages translate)).after w = (.ok paths, w') ∧
        j.FinishesAll found ws w.tree w'.tree) ∨
      ∃ f w' done ws, (found.mapM (translateOne j.languages translate)).after w = (.error f, w') ∧
        j.FailsAmong found f w.tree w'.tree done ws := by
  induction found generalizing w with
  | nil => exact .inl ⟨[], w, [], rfl, .nil _⟩
  | cons place places ih =>
    obtain ⟨hname, hnames⟩ := List.forall_mem_cons.mp hnames
    rw [List.mapM_cons]
    obtain ⟨paths, ws, w₁, hafter, hfinishes, hwritten⟩ | ⟨f, ws, w₁, hafter, hfails, hwritten⟩ :=
      after_translateOne htranslate hname w
    · rw [after_bind, hafter]
      dsimp only
      obtain ⟨more, w₂, vs, hrest, hdone⟩ | ⟨f, w₂, done, _, hrest, p, rest, vs, more, middle, rfl,
          hdone, hfails, hmore, rfl⟩ := ih hnames w₁
      · exact .inl ⟨paths :: more, w₂, ws ++ vs, by rw [after_bind, hrest]; rfl,
          .cons hfinishes hwritten hdone⟩
      · refine .inr ⟨f, w₂, place :: done, ws ++ (vs ++ more), by rw [after_bind, hrest], ?_⟩
        exact ⟨p, rest, ws ++ vs, more, middle, rfl, .cons hfinishes hwritten hdone, hfails, hmore,
          (List.append_assoc ..).symm⟩
    · refine .inr ⟨f, w₁, [], ws, by rw [after_bind, hafter], ?_⟩
      exact ⟨place, places, [], ws, w.tree, rfl, .nil _, hfails, hwritten, rfl⟩

/-- How a command with a job fails: for its settings, before anything is done, or for one of the
bundles that are found. -/
def FailsFor (s : Surroundings) (job : Except SettingsError Job) (f : Failure)
    (before after : FileTree) : Prop :=
  (∃ e, job = .error e ∧ f = .settings e ∧ after = before) ∨
    ∃ j done ws, job = .ok j ∧
      j.FailsAmong (Discovery.find before s.working .bundle j.paths) f before after done ws

/-- How a command with a job ends: it fails, or all bundles that are found are finished. -/
def Ends (s : Surroundings) (job : Except SettingsError Job) (before after : FileTree) :
    Except Failure Json → Prop
  | .error f => FailsFor s job f before after
  | .ok _ => ∃ j ws, job = .ok j ∧
      j.FinishesAll (Discovery.find before s.working .bundle j.paths) ws before after

/-- What a job comes to, whatever is reported once it is done. -/
theorem after_job (s : Surroundings)
    (htranslate : ∀ b, Reads (translate b) fun _ => j.translation b)
    (reported : List Place → List Path → Json) (w : Workspace) :
    ∃ r w', (do
        let found ← Task.find s .bundle j.paths
        let outputs ← translateEach j.languages translate found
        return reported found outputs : Task Json).after w = (r, w') ∧
      Ends s (.ok j) w.tree w'.tree r := by
  rw [after_bind, after_find]
  dsimp only
  rw [translateEach_eq, after_bind, after_bind]
  obtain ⟨paths, w₁, ws, hafter, hfinishes⟩ | ⟨f, w₁, done, ws, hafter, hfails⟩ :=
    after_translateAll htranslate (fun p hp => Naming.bundleName?_of_mem_find hp) w
  · rw [hafter]
    exact ⟨_, w₁, rfl, j, ws, rfl, hfinishes⟩
  · rw [hafter]
    exact ⟨_, w₁, rfl, .inr ⟨j, done, ws, rfl, hfails⟩⟩

end Running

/-- Settings that are wrong fail a command before it looks for bundles. -/
theorem after_settings {σ : Type} (s : Surroundings) (x : Except SettingsError σ) (job : σ → Job)
    {command : σ → Task Json} {w : Workspace}
    (hcommand : ∀ settings, ∃ r w', (command settings).after w = (r, w') ∧
      Ends s (.ok (job settings)) w.tree w'.tree r) :
    ∃ r w', (Task.ofExcept .settings x >>= command).after w = (r, w') ∧
      Ends s (x.map job) w.tree w'.tree r := by
  cases x with
  | error e => exact ⟨.error (.settings e), w, rfl, .inl ⟨e, rfl, rfl, rfl⟩⟩
  | ok settings => exact hcommand settings

/-- How a command that translates bundles ends. -/
theorem ends_run_job (s : Surroundings) {c : CommandLine.Command} {job : Except SettingsError Job}
    (hjob : job? s c = some job) (w : Workspace) :
    ∃ r w', (run s c).after w = (r, w') ∧ Ends s job w.tree w'.tree r := by
  cases c with
  | pseudo paths language =>
    obtain rfl := Option.some.inj hjob
    exact after_job (j := .pseudo paths language) s (fun b => Reads.ofExcept .shape _)
      (fun _ outputs => report
        [("language", .string language), ("outputs", texts (outputs.map Path.toText))]
        (writtenSummary (!outputs.isEmpty) outputs)) w
  | azure paths languages =>
    obtain rfl := Option.some.inj hjob
    refine after_settings s _ (.azure s paths languages) fun settings => ?_
    exact after_job (j := .azure s paths languages settings) s (fun b => Reads.sendAzure _)
      (fun found => providerReport .azure languages (!found.isEmpty)) w
  | aws paths languages settings =>
    obtain rfl := Option.some.inj hjob
    refine after_settings s _ (.aws s paths languages) fun settings => ?_
    rw [after_bind, after_say]
    exact after_job (j := .aws s paths languages settings) s (fun b => Reads.sendAws _ _)
      (fun found => providerReport .aws languages (!found.isEmpty)) _
  | _ => cases hjob

/-- A command that translates bundles fails for its settings, or for one of the bundles. -/
theorem after_run_job (s : Surroundings) {c : CommandLine.Command} {job : Except SettingsError Job}
    (hjob : job? s c = some job) (w : Workspace) :
    ∃ r w', (run s c).after w = (r, w') ∧
      ∀ f, r = .error f → FailsFor s job f w.tree w'.tree := by
  obtain ⟨r, w', hafter, hends⟩ := ends_run_job s hjob w
  refine ⟨r, w', hafter, fun f hf => ?_⟩
  obtain rfl := hf
  exact hends

end Commands

namespace Program

/-- A failed run of a command that translates bundles has failed for its settings, with no file
changed, or for one of the bundles that are found. Then every bundle before that one has its file in
every language. So nothing is changed exactly if every file that was written had before what was
written to it last, as where the first bundle cannot be read or translated. -/
theorem run_translation_failed (s : Surroundings) (tree : FileTree) {arguments : List Text}
    {i : CommandLine.Invocation} (hi : CommandLine.Invocation.ofArguments arguments = .ok i)
    {job : Except SettingsError Commands.Job} (hjob : Commands.job? s i.command = some job)
    (hexit : (run s tree arguments).exitCode = 1) :
    ∃ f, (run s tree arguments).ending = .failed f ∧
      ((∃ e, job = .error e ∧ f = .settings e ∧ (run s tree arguments).workspace.tree = tree) ∨
        ∃ j done ws, job = .ok j ∧
          j.FailsAmong (Discovery.find tree s.working .bundle j.paths) f tree
            (run s tree arguments).workspace.tree done ws ∧
          (∀ place ∈ done, ∀ language ∈ j.languages,
            ((run s tree arguments).workspace.tree.contents?
              (target [] (Naming.beside place language))).isSome) ∧
          ((∀ q, (run s tree arguments).workspace.tree.contents? q = tree.contents? q) ↔
            ∀ q bytes, ws.reverse.lookup q = some bytes → tree.contents? q = some bytes)) := by
  obtain ⟨r, w, hafter, hfails⟩ := Commands.after_run_job s hjob { tree }
  rw [run_eq hi hafter] at hexit ⊢
  cases r with
  | ok report => simp [Outcome.exitCode, Ending.ofResult] at hexit
  | error f =>
    refine ⟨f, rfl, ?_⟩
    obtain hsettings | ⟨j, done, ws, hj, hamong⟩ := hfails f rfl
    · exact .inl hsettings
    · exact .inr ⟨j, done, ws, hj, hamong, fun place hplace language hlanguage =>
        hamong.isSome_of_mem hplace hlanguage, hamong.written.unchanged_iff⟩

/-- A bundle that can be translated, and one that is no object. -/
def halfTree : FileTree where
  files := [(["a.l10n.json"], Utf8.encode "\x7b\"a\": \"b\"\x7d".toList),
    (["b.l10n.json"], Utf8.encode "[]".toList)]

theorem find_halfTree : Discovery.find halfTree [] .bundle ["a.l10n.json", "b.l10n.json"] =
    ([["a.l10n.json"], ["b.l10n.json"]] : List Place) :=
  Discovery.find_eq (by decide +kernel) (by decide +kernel)

/-- The second bundle cannot be read. -/
theorem after_halfTree : ∃ p,
    ((Commands.run offline (.pseudo ["a.l10n.json", "b.l10n.json"] "qps-ploc")).after
      { tree := halfTree }).1 = .error (.notObject p) := by
  have hcheck : (match ((Commands.run offline
      (.pseudo ["a.l10n.json", "b.l10n.json"] "qps-ploc")).after { tree := halfTree }).1 with
    | .error (.notObject _) => true
    | _ => false) = true := by
    rw [Commands.run, Commands.pseudo, Task.after_bind, Task.after_find]
    simp only [show offline.working = [] from rfl, find_halfTree]
    decide +kernel
  split at hcheck
  · rename_i p hp
    exact ⟨p, hp⟩
  · cases hcheck

/-- The second bundle fails the run, and the first one is translated. -/
theorem run_translation_failed_second :
    let o := run offline halfTree ["generate-pseudo", "a.l10n.json", "b.l10n.json"]
    o.exitCode = 1 ∧ halfTree.contents? ["a.l10n.qps-ploc.json"] = none ∧
      (o.workspace.tree.contents? ["a.l10n.qps-ploc.json"]).isSome := by
  intro o
  have hi : ∃ i, CommandLine.Invocation.ofArguments
      ["generate-pseudo", "a.l10n.json", "b.l10n.json"] = .ok i ∧
      i.command = .pseudo ["a.l10n.json", "b.l10n.json"] "qps-ploc" := ⟨_, rfl, by decide +kernel⟩
  have hbefore : halfTree.contents? ["a.l10n.qps-ploc.json"] = none := by decide +kernel
  have hplace : target [] (Naming.beside ["a.l10n.json"] "qps-ploc") =
      (["a.l10n.qps-ploc.json"] : Place) := by decide +kernel
  have hfine : (halfTree.bundleAt ["a.l10n.json"] >>= (Commands.Job.pseudo ["a.l10n.json",
      "b.l10n.json"] "qps-ploc").translation).isOk = true := by decide +kernel
  obtain ⟨i, hi, hcommand⟩ := hi
  obtain ⟨p, hresult⟩ := after_halfTree
  have hfailed : o.ending = .failed (.notObject p) := ending_eq hi (hcommand ▸ hresult)
  have hexit : o.exitCode = 1 := by rw [Outcome.exitCode, hfailed]
  have hjob : Commands.job? offline i.command =
      some (.ok (.pseudo ["a.l10n.json", "b.l10n.json"] "qps-ploc")) := by rw [hcommand]; rfl
  obtain ⟨f, hending, hcases⟩ := run_translation_failed offline halfTree hi hjob hexit
  obtain rfl : .notObject p = f := Ending.failed.inj (hfailed.symm.trans hending)
  obtain ⟨e, he, -⟩ | ⟨j, done, ws, hj, hamong, hdone, -⟩ := hcases
  · cases he
  obtain rfl := Except.ok.inj hj
  obtain ⟨bs, hbs⟩ := exists_of_isOk hfine
  obtain ⟨b, hread, htranslation⟩ := bind_eq_ok_iff.mp hbs
  have hamong := find_halfTree ▸ hamong
  have hmem := hamong.first_mem hread htranslation (by simp) (by simp)
  refine ⟨hexit, hbefore, ?_⟩
  rw [← hplace]
  exact hdone _ hmem _ (by simp [Commands.Job.pseudo])

end Program

end Localization
