import Localization.Proofs.Json.Object
import Localization.Proofs.Program.Imported
import Localization.Proofs.Program.Translated
import Localization.Proofs.Utf8
import Localization.Proofs.Xliff.Messages
import Mathlib.Data.List.ProdSigma

/-! The files of translated bundles. A file is told by its folder and by the name that the name of
the bundle and the language make up, so that bundles of one folder may share it; the one that is
written last stays. -/

namespace Localization

open FileTree (Written target)

/-- The data in the file at a place. -/
def FileTree.dataAt? (t : FileTree) (p : Place) : Option Json := do
  let bytes ← t.contents? p
  let cs ← (Utf8.decode bytes).toOption
  Json.parse? cs

theorem FileTree.nodup_keys_bundleAt {t : FileTree} {place : Place} {b : Bundle}
    (h : t.bundleAt place = .ok b) : b.keys.Nodup := by
  obtain ⟨v, hv, hfields⟩ := bind_eq_ok_iff.mp h
  obtain ⟨cs, -, hparse⟩ := bind_eq_ok_iff.mp (mapError_eq_ok_iff.mp hv)
  cases v with
  | object fields =>
    obtain rfl := Except.ok.inj hfields
    exact Json.nodup_keys_parse (mapError_eq_ok_iff.mp hparse)
  | _ => cases hfields

theorem Pseudo.keys_bundle {b : Bundle} {m : Fields Text} (h : bundle b = .ok m) :
    m.keys = b.keys := by
  refine eq_map_of_forall₂ (List.forall₂_map_right_iff.mpr ?_)
  refine (mapM_eq_ok_iff.mp h).imp fun e f hf => ?_
  obtain ⟨t, -, rfl⟩ := map_eq_ok_iff.mp hf
  rfl

namespace Naming

/-- The folder of a bundle, and its name there. -/
def source (place : Place) : Place × Text :=
  (Place.follow [] place.dropLast, (bundleName? (.ofPlace place)).getD [])

/-- What the name of the file of a translated bundle has before its language, up to the dot. -/
def stem (bundle : Text) : Text := bundle ++ if bundle = packageName then ".nls" else ".l10n"

theorem translatedName_eq (bundle language : Text) :
    translatedName bundle language = stem bundle ++ .char '.' :: language ++ ".json" := by
  rw [translatedName, stem]
  split <;> simp [Text.ofString]

theorem stem_injective : Function.Injective stem := by
  have hkind (bundle : Text) : (stem bundle).getLast? =
      if bundle = packageName then some (.char 's') else some (.char 'n') := by
    rw [stem]
    split <;> simp [Text.ofString]
  intro a b h
  have hlast := congrArg List.getLast? h
  rw [hkind, hkind] at hlast
  by_cases ha : a = packageName
  · by_cases hb : b = packageName
    · exact ha.trans hb.symm
    · simp [ha, hb] at hlast
  · by_cases hb : b = packageName
    · simp [ha, hb] at hlast
    · rw [stem, stem, if_neg ha, if_neg hb] at h
      exact List.append_cancel_right h

/-- A language without dots is told by the name of the file, and so is the bundle. -/
theorem translatedName_inj {a b l m : Text} (hl : ∀ p ∈ l, p.isChar '.' = false)
    (hm : ∀ p ∈ m, p.isChar '.' = false) (h : translatedName a l = translatedName b m) :
    a = b ∧ l = m := by
  rw [translatedName_eq, translatedName_eq] at h
  have h := List.append_cancel_right h
  have hrun {x y : Text} (hy : ∀ p ∈ y, p.isChar '.' = false) :
      (x ++ .char '.' :: y).reverse.takeWhile (fun p => !p.isChar '.') = y.reverse := by
    rw [List.reverse_append, List.reverse_cons, List.append_assoc]
    exact takeWhile_run (by simpa using hy) (by simp [CodePoint.isChar])
  obtain rfl : l = m := by
    rw [← List.reverse_inj, ← hrun hl, h, hrun hm]
  exact ⟨stem_injective (List.append_cancel_right h), rfl⟩

end Naming

namespace Commands

/-- A translated bundle that is written to a file in a folder. -/
structure Output where
  folder : Place
  name : Text
  language : Text
  messages : Fields Text

namespace Output

variable {o o' : Output} {t : FileTree}

/-- The place of the file. -/
def place (o : Output) : Place :=
  target o.folder (.ofText (Naming.translatedName o.name o.language))

/-- The bundle that an output is a translation of, and the language. -/
def address (o : Output) : (Place × Text) × Text := ((o.folder, o.name), o.language)

/-- An output whose name and language are parts of the name of a file. -/
structure Plain (o : Output) : Prop where
  name : Path.IsName o.name
  language : Path.IsName o.language
  dotless : ∀ p ∈ o.language, p.isChar '.' = false

/-- The messages stand in the file. -/
def IsIn (o : Output) (t : FileTree) : Prop := t.dataAt? o.place = some (translatedData o.messages)

/-- What is put at which place when the output is written. -/
def PutAs (o : Output) (w : Place × List UInt8) : Prop :=
  w.1 = o.place ∧ ∃ cs, (translatedData o.messages).render = .ofChars cs ∧ w.2 = Utf8.encode cs

theorem place_eq (h : o.Plain) :
    o.place = o.folder ++ [Naming.translatedName o.name o.language] :=
  Naming.target_translatedName h.name h.language o.folder

theorem place_eq_iff (h : o.Plain) (h' : o'.Plain) :
    o.place = o'.place ↔ o.address = o'.address := by
  constructor
  · intro hplace
    rw [place_eq h, place_eq h'] at hplace
    obtain ⟨hfolder, hname⟩ := List.append_inj' hplace rfl
    obtain ⟨hname, hlanguage⟩ :=
      Naming.translatedName_inj h.dotless h'.dotless (List.singleton_inj.mp hname)
    rw [address, address, hfolder, hname, hlanguage]
  · intro haddress
    obtain ⟨hsource, hlanguage⟩ := Prod.mk.inj haddress
    obtain ⟨hfolder, hname⟩ := Prod.mk.inj hsource
    rw [place, place, hfolder, hname, hlanguage]

/-- What is put for an output with distinct keys is read as its messages. -/
theorem PutAs.isIn {bytes : List UInt8} (h : o.PutAs (o.place, bytes))
    (hkeys : o.messages.keys.Nodup) (ht : t.contents? o.place = some bytes) : o.IsIn t := by
  obtain ⟨-, cs, hcs, rfl⟩ := h
  have hchars := Json.exists_ofChars_of_render hcs
  have htextual : Json.Textual Json.usualNesting (translatedData o.messages) := by
    refine .object ?_ ?_ ?_
    · rintro _ hf
      obtain ⟨e, he, rfl⟩ := List.mem_map.mp hf
      exact (hchars e he).1
    · rw [Fields.keys, List.map_map]
      exact hkeys
    · rintro _ hf
      obtain ⟨e, he, rfl⟩ := List.mem_map.mp hf
      obtain ⟨ds, hds⟩ := (hchars e he).2
      dsimp only
      rw [hds]
      exact .string ds
  have hparse := Json.parse_render htextual
  rw [hcs] at hparse
  simp [IsIn, FileTree.dataAt?, ht, Utf8.decode_encode, Except.toOption, Json.parse?, hparse]

/-- A file holds the messages of one output. -/
theorem IsIn.messages_eq (h : o.IsIn t) (h' : o'.IsIn t) (hplace : o.place = o'.place) :
    o.messages = o'.messages := by
  have hdata : translatedData o.messages = translatedData o'.messages :=
    Option.some.inj (h.symm.trans ((congrArg t.dataAt? hplace).trans h'))
  refine List.map_injective_iff.mpr ?_ (Json.object.inj hdata)
  rintro ⟨k, v⟩ ⟨l, w⟩ hfield
  obtain ⟨rfl, hvalue⟩ := Prod.mk.inj hfield
  rw [Json.string.inj hvalue]

end Output

/-- Outputs are written one after another. -/
def Puts (os : List Output) (before after : FileTree) : Prop :=
  ∃ ws, List.Forall₂ Output.PutAs os ws ∧ Written ws before after

namespace Puts

variable {os more : List Output} {before middle after : FileTree}

theorem trans (h : Puts os before middle) (h' : Puts more middle after) :
    Puts (os ++ more) before after := by
  obtain ⟨ws, hws, hwritten⟩ := h
  obtain ⟨vs, hvs, hmore⟩ := h'
  exact ⟨ws ++ vs, List.rel_append hws hvs, hwritten.trans hmore⟩

/-- Every file holds what was written to it last. -/
theorem exists_isIn (h : Puts os before after) (hkeys : ∀ o ∈ os, o.messages.keys.Nodup)
    {o : Output} (ho : o ∈ os) : ∃ last ∈ os, last.place = o.place ∧ last.IsIn after := by
  obtain ⟨ws, hws, hwritten⟩ := h
  obtain ⟨w, hw, hplace, -⟩ := exists_of_forall₂ hws o ho
  obtain ⟨bytes, hlookup⟩ := Written.exists_lookup hw
  obtain ⟨last, hlast, hput⟩ := exists_of_forall₂ hws.flip _ (Written.mem_of_lookup hlookup)
  have hsame : w.1 = last.place := hput.1
  rw [hsame] at hput hlookup
  refine ⟨last, hlast, hsame.symm.trans hplace, Output.PutAs.isIn hput (hkeys last hlast) ?_⟩
  rw [hwritten, hlookup, Option.some_or]

/-- All messages are there exactly if outputs to one place are the same. -/
theorem isIn_iff (h : Puts os before after) (hkeys : ∀ o ∈ os, o.messages.keys.Nodup) :
    (∀ o ∈ os, o.IsIn after) ↔
      ∀ o ∈ os, ∀ o' ∈ os, o.place = o'.place → o.messages = o'.messages := by
  constructor
  · intro hall o ho o' ho' hplace
    exact (hall o ho).messages_eq (hall o' ho') hplace
  · intro hsame o ho
    obtain ⟨last, hlast, hplace, hin⟩ := h.exists_isIn hkeys ho
    rw [Output.IsIn, ← hplace, hsame o ho last hlast hplace.symm]
    exact hin

end Puts

/-! The outputs of commands. -/

/-- The output for a translated file that is written to a folder. -/
def Output.ofFile (folder : Place) (f : Xliff.LocalizedFile) : Output where
  folder := Place.follow [] folder
  name := f.name
  language := f.language
  messages := f.messages

/-- The output for a bundle that is translated into a language. -/
def Output.ofBundle (place : Place) (language : Text) (messages : Fields Text) : Output where
  folder := (Naming.source place).1
  name := (Naming.source place).2
  language
  messages

/-- The outputs for a bundle that is translated into all languages. -/
def Job.outputsFor (j : Job) (place : Place) (bs : List (Fields Text)) : List Output :=
  (j.languages.zip bs).map fun o => .ofBundle place o.1 o.2

/-- Bundles that are read, translated and written one after another, and their outputs. -/
inductive Job.Yields (j : Job) : List Place → List Output → FileTree → FileTree → Prop
  | nil (t : FileTree) : Yields j [] [] t t
  | cons {place : Place} {places : List Place} {b : Bundle} {bs : List (Fields Text)}
    {os : List Output} {before middle after : FileTree} (hread : before.bundleAt place = .ok b)
    (htranslation : j.translation b = .ok bs) (hputs : Puts (j.outputsFor place bs) before middle)
    (hplaces : Yields j places os middle after) :
    Yields j (place :: places) (j.outputsFor place bs ++ os) before after

/-- The outputs of a command that is done: those for the translated files in the documents that are
found, or for the bundles that are found, in every language. -/
inductive Outputs (s : Surroundings) (before after : FileTree) :
    CommandLine.Command → List Output → Prop
  | nothing {paths : List Text} {outDir : Text}
    (hfound : Discovery.find before s.working .exchange paths = [])
    (hputs : Puts [] before after) : Outputs s before after (.readExchange paths outDir) []
  | imported {paths : List Text} {outDir : Text} {files : List (List Xliff.LocalizedFile)}
    {folder : Place}
    (hread : (Discovery.find before s.working .exchange paths).mapM before.documentAt = .ok files)
    (hfolder : Place.resolve s.working (.ofText outDir) = .ok folder)
    (hputs : Puts (files.flatten.map (.ofFile folder)) before after) :
    Outputs s before after (.readExchange paths outDir) (files.flatten.map (.ofFile folder))
  | translated {c : CommandLine.Command} {j : Job} {os : List Output}
    (hjob : job? s c = some (.ok j))
    (hyields : j.Yields (Discovery.find before s.working .bundle j.paths) os before after) :
    Outputs s before after c os

theorem Imports.exists_outputs {s : Surroundings} {paths : List Text} {outDir : Text}
    {before after : FileTree} {report : Json}
    (h : Imports s paths outDir before (.ok report) after) :
    ∃ os, Outputs s before after (.readExchange paths outDir) os := by
  cases h with
  | nothing _ hfound => exact ⟨[], .nothing hfound ⟨[], .nil, .of_files rfl⟩⟩
  | written _ hread hfolder hws hwritten =>
    refine ⟨_, .imported hread hfolder ⟨_, ?_, hwritten⟩⟩
    rw [Naming.outputs, List.forall₂_map_left_iff] at hws
    rw [List.forall₂_map_left_iff]
    exact hws.imp fun f w hput => ⟨hput.1.trans (FileTree.target_append _ _), hput.2⟩

namespace Job

variable {j : Job} {places : List Place} {os : List Output} {before after : FileTree}

/-- What is put for a bundle is put as its outputs. -/
theorem putAs_of_putBy {place : Place} {bs : List (Fields Text)} {ws : List (Place × List UInt8)}
    (h : List.Forall₂ PutBy (j.outputs place bs) ws) :
    List.Forall₂ Output.PutAs (j.outputsFor place bs) ws := by
  rw [outputs, List.forall₂_map_left_iff] at h
  rw [outputsFor, List.forall₂_map_left_iff]
  exact h.imp fun o w hput => ⟨hput.1.trans (FileTree.target_append place.dropLast _), hput.2⟩

theorem FinishesAll.exists_yields {ws : List (Place × List UInt8)}
    (h : j.FinishesAll places ws before after) : ∃ os, j.Yields places os before after := by
  induction h with
  | nil t => exact ⟨[], .nil t⟩
  | cons hplace hwritten _ ih =>
    obtain ⟨b, bs, hread, htranslation, hws⟩ := hplace
    obtain ⟨os, hyields⟩ := ih
    exact ⟨_, .cons hread htranslation ⟨_, putAs_of_putBy hws, hwritten⟩ hyields⟩

namespace Yields

theorem puts (h : j.Yields places os before after) : Puts os before after := by
  induction h with
  | nil t => exact ⟨[], .nil, .of_files rfl⟩
  | cons _ _ hputs _ ih => exact hputs.trans ih

/-- There is an output for every bundle in every language. -/
theorem address (h : j.Yields places os before after) :
    os.map Output.address = (places.map Naming.source).product j.languages := by
  induction h with
  | nil t => rfl
  | @cons place places b bs os _ _ _ _ htranslation _ _ ih =>
    have hfirst : (j.outputsFor place bs).map Output.address =
        j.languages.map fun language => (Naming.source place, language) := by
      have hzip : (j.languages.zip bs).map Prod.fst = j.languages :=
        List.map_fst_zip (j.length htranslation).ge
      rw [← hzip, outputsFor, List.map_map, List.map_map]
      rfl
    rw [List.map_append, hfirst, ih]
    rfl

theorem nodup_keys (h : j.Yields places os before after)
    (htranslation : ∀ b bs, b.keys.Nodup → j.translation b = .ok bs → ∀ m ∈ bs, m.keys.Nodup) :
    ∀ o ∈ os, o.messages.keys.Nodup := by
  induction h with
  | nil t => simp
  | cons hread hbs _ _ ih =>
    intro o ho
    rcases List.mem_append.mp ho with ho | ho
    · obtain ⟨⟨language, m⟩, hm, rfl⟩ := List.mem_map.mp ho
      exact htranslation _ _ (FileTree.nodup_keys_bundleAt hread) hbs m (List.of_mem_zip hm).2
    · exact ih o ho

end Yields

end Job

variable {s : Surroundings} {c : CommandLine.Command} {os : List Output} {before after : FileTree}

/-- Whatever translates a bundle makes maps of it. -/
theorem nodup_keys_of_job {j : Job} (hjob : job? s c = some (.ok j)) {b : Bundle}
    {bs : List (Fields Text)} (hb : b.keys.Nodup) (h : j.translation b = .ok bs) {m : Fields Text}
    (hm : m ∈ bs) : m.keys.Nodup := by
  cases c with
  | pseudo paths language =>
    obtain rfl := Except.ok.inj (Option.some.inj hjob)
    obtain ⟨n, hn, rfl⟩ := map_eq_ok_iff.mp (mapError_eq_ok_iff.mp h)
    obtain rfl := List.mem_singleton.mp hm
    rw [Pseudo.keys_bundle hn]
    exact hb
  | azure paths languages =>
    obtain ⟨settings, -, rfl⟩ := map_eq_ok_iff.mp (Option.some.inj hjob)
    exact Provider.Azure.nodup_keys_of_translate (mapError_eq_ok_iff.mp h) hm
  | aws paths languages settings =>
    obtain ⟨checked, -, rfl⟩ := map_eq_ok_iff.mp (Option.some.inj hjob)
    have hkeys := Provider.Aws.forall₂_of_translate (mapError_eq_ok_iff.mp h)
    obtain ⟨_, -, hnodup⟩ := exists_of_forall₂ hkeys.flip m hm
    exact hnodup
  | _ => cases hjob

namespace Outputs

theorem puts (h : Outputs s before after c os) : Puts os before after := by
  cases h with
  | nothing _ hputs => exact hputs
  | imported _ _ hputs => exact hputs
  | translated _ hyields => exact hyields.puts

theorem nodup_keys (h : Outputs s before after c os) : ∀ o ∈ os, o.messages.keys.Nodup := by
  cases h with
  | nothing => simp
  | imported hread =>
    intro o ho
    obtain ⟨f, hf, rfl⟩ := List.mem_map.mp ho
    obtain ⟨files, hfiles, hf⟩ := List.mem_flatten.mp hf
    obtain ⟨place, -, hplace⟩ := exists_of_forall₂ (mapM_eq_ok_iff.mp hread).flip files hfiles
    obtain ⟨cs, -, himport⟩ := FileTree.documentAt_eq_ok_iff.mp hplace
    exact Xliff.nodup_keys_importDocument himport hf
  | translated hjob hyields =>
    exact hyields.nodup_keys fun b bs hb hbs m hm => nodup_keys_of_job hjob hb hbs hm

/-- Where languages are distinct, outputs are told apart exactly if the bundles are. -/
theorem nodup_address_iff (h : Outputs s before after c os) {j : Job}
    (hjob : job? s c = some (.ok j)) (hlanguages : j.languages.Nodup) (hne : j.languages ≠ []) :
    (os.map Output.address).Nodup ↔
      ((Discovery.find before s.working .bundle j.paths).map Naming.source).Nodup := by
  cases h with
  | nothing => cases hjob
  | imported => cases hjob
  | translated hjob' hyields =>
    obtain rfl := Except.ok.inj (Option.some.inj (hjob.symm.trans hjob'))
    rw [hyields.address]
    refine ⟨fun hnodup => ?_, fun hnodup => hnodup.product hlanguages⟩
    obtain ⟨language, hlanguage⟩ := List.exists_mem_of_ne_nil _ hne
    refine (List.nodup_flatMap.mp hnodup).2.imp fun {a b} hdisjoint hab => ?_
    subst hab
    exact hdisjoint (List.mem_map_of_mem hlanguage) (List.mem_map_of_mem hlanguage)

end Outputs

theorem Ends.exists_outputs {job : Except SettingsError Job} (hjob : job? s c = some job)
    {report : Json} (h : Ends s job before after (.ok report)) :
    ∃ os, Outputs s before after c os := by
  obtain ⟨j, ws, rfl, hfinishes⟩ := h
  obtain ⟨os, hyields⟩ := hfinishes.exists_yields
  exact ⟨os, .translated hjob hyields⟩

end Commands

/-- The commands that write translated bundles. -/
inductive CommandLine.Command.Localizes : CommandLine.Command → Prop
  | readExchange (paths : List Text) (outDir : Text) : Localizes (.readExchange paths outDir)
  | pseudo (paths : List Text) (language : Text) : Localizes (.pseudo paths language)
  | azure (paths languages : List Text) : Localizes (.azure paths languages)
  | aws (paths languages : List Text) (settings : AwsSettings) :
    Localizes (.aws paths languages settings)

namespace Commands

variable {s : Surroundings} {c : CommandLine.Command}

theorem exists_outputs_of_job {job : Except SettingsError Job} (hjob : job? s c = some job)
    (w : Workspace) : ∃ r w', (run s c).after w = (r, w') ∧
      ∀ report, r = .ok report → ∃ os, Outputs s w.tree w'.tree c os := by
  obtain ⟨r, w', hafter, hends⟩ := ends_run_job s hjob w
  refine ⟨r, w', hafter, fun report hr => ?_⟩
  obtain rfl := hr
  exact hends.exists_outputs hjob

/-- A command that writes translated bundles has outputs, once it is done. -/
theorem exists_outputs (h : c.Localizes) (w : Workspace) :
    ∃ r w', (run s c).after w = (r, w') ∧
      ∀ report, r = .ok report → ∃ os, Outputs s w.tree w'.tree c os := by
  cases h with
  | readExchange paths outDir =>
    obtain ⟨r, w', hafter, himports⟩ := after_readExchange s paths outDir w
    refine ⟨r, w', hafter, fun report hr => ?_⟩
    obtain rfl := hr
    exact himports.exists_outputs
  | pseudo paths language => exact exists_outputs_of_job rfl w
  | azure paths languages => exact exists_outputs_of_job rfl w
  | aws paths languages settings => exact exists_outputs_of_job rfl w

end Commands

namespace Program

open Commands (Output)

/-- The messages of all outputs of a run that is done are there exactly if outputs to one place are
the same. Outputs whose names and languages are parts of names of files have one place exactly if
they are of one bundle name, in one folder and in one language. In distinct languages that is so
exactly if two of the bundles that are found have one name in one folder. -/
theorem run_outputs (s : Surroundings) (tree : FileTree) {arguments : List Text}
    {i : CommandLine.Invocation} (hi : CommandLine.Invocation.ofArguments arguments = .ok i)
    (hcommand : i.command.Localizes) (hexit : (run s tree arguments).exitCode = 0) :
    ∃ os, Commands.Outputs s tree (run s tree arguments).workspace.tree i.command os ∧
      ((∀ o ∈ os, o.IsIn (run s tree arguments).workspace.tree) ↔
        ∀ o ∈ os, ∀ o' ∈ os, o.place = o'.place → o.messages = o'.messages) ∧
      ((∀ o ∈ os, o.Plain) →
        ((os.map Output.place).Nodup ↔ (os.map Output.address).Nodup)) ∧
      ∀ j, Commands.job? s i.command = some (.ok j) → j.languages.Nodup → j.languages ≠ [] →
        ((os.map Output.address).Nodup ↔
          ((Discovery.find tree s.working .bundle j.paths).map Naming.source).Nodup) := by
  obtain ⟨r, w, hafter, hdone⟩ := Commands.exists_outputs hcommand { tree }
  rw [run_eq hi hafter] at hexit ⊢
  cases r with
  | error f => simp [Outcome.exitCode, Ending.ofResult] at hexit
  | ok report =>
    obtain ⟨os, hos⟩ := hdone report rfl
    refine ⟨os, hos, hos.puts.isIn_iff hos.nodup_keys, fun hplain => ?_,
      fun j hjob hlanguages hne => hos.nodup_address_iff hjob hlanguages hne⟩
    rw [List.Nodup, List.Nodup, List.pairwise_map, List.pairwise_map]
    refine List.Pairwise.iff_of_mem fun ho ho' => ?_
    rw [ne_eq, ne_eq, Output.place_eq_iff (hplain _ ho) (hplain _ ho')]

/-- The bundle of a package under both names that it may have. -/
def packageTree : FileTree where
  files := [(["package.l10n.json"], Utf8.encode "\x7b\"u\": \"v\"\x7d".toList),
    (["package.nls.json"], Utf8.encode "\x7b\"x\": \"y\"\x7d".toList)]

/-- The output for either of the bundles. -/
def packageOutput (m : Fields Text) : Output := ⟨[], "package", "qps-ploc", m⟩

theorem plain_packageOutput (m : Fields Text) : (packageOutput m).Plain :=
  ⟨(by decide : Path.IsName "package"), (by decide : Path.IsName "qps-ploc"),
    (by decide : ∀ p ∈ Text.ofString "qps-ploc", p.isChar '.' = false)⟩

theorem place_packageOutput (m : Fields Text) :
    (packageOutput m).place = [Text.ofString "package.nls.qps-ploc.json"] :=
  show target [] (.ofText (Naming.translatedName "package" "qps-ploc")) = _ by decide +kernel

theorem find_packageTree : Discovery.find packageTree offline.working .bundle
    (Commands.Job.pseudo ["package.l10n.json", "package.nls.json"] "qps-ploc").paths =
      ([["package.l10n.json"], ["package.nls.json"]] : List Place) :=
  Discovery.find_eq (by decide +kernel) (by decide +kernel)

theorem source_packageTree : ([["package.l10n.json"], ["package.nls.json"]] : List Place).map
    Naming.source = [([], Text.ofString "package"), ([], Text.ofString "package")] := by
  decide +kernel

/-- What is there in the end has no message of the first bundle. -/
theorem after_packageTree : ∃ report w,
    (Commands.run offline (.pseudo ["package.l10n.json", "package.nls.json"] "qps-ploc")).after
      { tree := packageTree } = (.ok report, w) ∧
    ∀ v, w.tree.dataAt? ["package.nls.qps-ploc.json"] = some v → v.field? "u" = none := by
  have hrun : let r := (Commands.run offline
      (.pseudo ["package.l10n.json", "package.nls.json"] "qps-ploc")).after { tree := packageTree }
      r.1.isOk = true ∧ ∀ v ∈ r.2.tree.dataAt? ["package.nls.qps-ploc.json"],
        (v.field? "u").isNone = true := by
    have hfound : Discovery.find packageTree offline.working .bundle
        ["package.l10n.json", "package.nls.json"] = _ := find_packageTree
    rw [Commands.run, Commands.pseudo, Task.after_bind, Task.after_find]
    simp only [hfound]
    decide +kernel
  obtain ⟨hok, hnone⟩ := hrun
  obtain ⟨report, hreport⟩ := exists_of_isOk hok
  exact ⟨report, _, Prod.ext hreport rfl, fun v hv => Option.isNone_iff_eq_none.mp (hnone v hv)⟩

theorem outputs_packageTree {after : FileTree} {os : List Output}
    (h : Commands.Outputs offline packageTree after
      (.pseudo ["package.l10n.json", "package.nls.json"] "qps-ploc") os) :
    ∃ m n, m.keys = [Text.ofString "u"] ∧ os = [packageOutput m, packageOutput n] := by
  have hkeys : (packageTree.bundleAt ["package.l10n.json"]).toOption.map Fields.keys =
      some ([Text.ofString "u"] : List Text) := by decide +kernel
  obtain ⟨hfirst, hrest⟩ := List.cons.inj source_packageTree
  cases h with
  | translated hjob hyields =>
    obtain rfl := Except.ok.inj (Option.some.inj hjob)
    rw [find_packageTree] at hyields
    cases hyields with
    | cons hread hbundle _ hmore =>
    cases hmore with
    | cons _ hother _ hnone =>
    cases hnone
    obtain ⟨m, hm, rfl⟩ := map_eq_ok_iff.mp (mapError_eq_ok_iff.mp hbundle)
    obtain ⟨n, -, rfl⟩ := map_eq_ok_iff.mp (mapError_eq_ok_iff.mp hother)
    rw [hread] at hkeys
    refine ⟨m, n, (Pseudo.keys_bundle hm).trans (Option.some.inj hkeys), ?_⟩
    simp [Commands.Job.outputsFor, Commands.Job.pseudo, Output.ofBundle, packageOutput, hfirst,
      List.singleton_inj.mp hrest]

/-- Both translations are written to one file, and one of them is lost. -/
theorem run_outputs_package :
    let o := run offline packageTree ["generate-pseudo", "package.l10n.json", "package.nls.json"]
    o.exitCode = 0 ∧ ∃ os : List Output, os.length = 2 ∧ (∀ output ∈ os, output.Plain) ∧
      ¬ (os.map Output.place).Nodup ∧ ¬ ∀ output ∈ os, output.IsIn o.workspace.tree := by
  intro o
  have hi : ∃ i, CommandLine.Invocation.ofArguments
      ["generate-pseudo", "package.l10n.json", "package.nls.json"] = .ok i ∧
      i.command = .pseudo ["package.l10n.json", "package.nls.json"] "qps-ploc" :=
    ⟨_, rfl, by decide +kernel⟩
  obtain ⟨i, hi, hcommand⟩ := hi
  obtain ⟨report, w, hafter, hlost⟩ := after_packageTree
  have hrun : o = _ := run_eq hi (hcommand ▸ hafter)
  have hexit : o.exitCode = 0 := congrArg Outcome.exitCode hrun
  obtain ⟨os, hos, -, hplaces, hsources⟩ := run_outputs offline packageTree hi
    (hcommand ▸ .pseudo ..) hexit
  rw [hcommand] at hos hsources
  obtain ⟨m, n, hkeys, rfl⟩ := outputs_packageTree hos
  have hplain : ∀ output ∈ [packageOutput m, packageOutput n], output.Plain := by
    simp [plain_packageOutput]
  refine ⟨hexit, _, rfl, hplain, ?_, fun hin => ?_⟩
  · have hlanguage : (Commands.Job.pseudo ["package.l10n.json", "package.nls.json"]
        "qps-ploc").languages = [Text.ofString "qps-ploc"] := rfl
    rw [hplaces hplain, hsources _ rfl (by simp [hlanguage]) (by simp [hlanguage]),
      find_packageTree, source_packageTree]
    simp
  · have hdata := hin _ List.mem_cons_self
    rw [Output.IsIn, place_packageOutput, hrun] at hdata
    obtain ⟨⟨k, t⟩, rfl, rfl⟩ := List.map_eq_singleton_iff.mp hkeys
    exact absurd (hlost _ hdata)
      (by simp [packageOutput, Commands.translatedData, Json.field?, Fields.get?])

end Program

end Localization
