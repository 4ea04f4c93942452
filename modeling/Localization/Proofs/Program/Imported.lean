import Localization.Proofs.File.Below
import Localization.Proofs.File.Found
import Localization.Proofs.Program.Failed
import Localization.Proofs.Program.Reads
import Localization.Proofs.Program.Writes

/-! Runs that write the translated files in exchange documents as bundles. All documents are read
before the first bundle is written, and the names of the bundles and their languages, which the
documents tell, say where they are written. -/

namespace Localization

/-- The translated files in the document at a place. -/
def FileTree.documentAt (t : FileTree) (place : Place) :
    Except Failure (List Xliff.LocalizedFile) := do
  let cs ← (t.readText [] (.ofPlace place)).mapError (.read (.ofPlace place))
  (Xliff.importDocument cs).1.mapError .exchange

theorem FileTree.documentAt_of_text {t : FileTree} {place : Place} {cs : List Char}
    (h : t.readText [] (.ofPlace place) = .ok cs) :
    t.documentAt place = (Xliff.importDocument cs).1.mapError .exchange := by
  rw [documentAt, h]
  rfl

theorem FileTree.documentAt_eq_ok_iff {t : FileTree} {place : Place}
    {files : List Xliff.LocalizedFile} : t.documentAt place = .ok files ↔
      ∃ cs, t.readText [] (.ofPlace place) = .ok cs ∧ (Xliff.importDocument cs).1 = .ok files := by
  simp only [documentAt, bind_eq_ok_iff, mapError_eq_ok_iff]

/-- The path to a translated file from the folder that it is written to. -/
def Naming.localizedPath (f : Xliff.LocalizedFile) : Path :=
  .ofText (translatedName f.name f.language)

/-- What is written for translated files to a folder. -/
def Naming.outputs (folder : Place) (files : List Xliff.LocalizedFile) : List (Path × Text) :=
  files.map fun f =>
    (.ofPlace folder ++ localizedPath f, (Commands.translatedData f.messages).render)

/-- A path that is followed from a place leads where it leads from the folder at that place. -/
theorem FileTree.target_append (folder : Place) (p : Path) :
    target [] (.ofPlace folder ++ p) = target (Place.follow [] folder) p := by
  obtain ⟨anchor, names⟩ := p
  cases anchor with
  | working => exact List.foldl_append
  | root => rfl
  | doubled => rfl

namespace Commands

open Localization.Task

theorem reads_readDocument (place : Place) :
    Reads (readDocument place) fun t => t.documentAt place :=
  .bind (.readText _) fun _ => .bind (.say _) fun _ => .ofExcept .exchange _

/-- A translated file in the documents that paths name, and the folder that it is written to. The
folder has no detours, even if the working folder should be written with some. -/
structure IsImported (s : Surroundings) (paths : List Text) (outDir : Text) (tree : FileTree)
    (folder : Place) (f : Xliff.LocalizedFile) : Prop where
  folder : ∃ p, Place.resolve s.working (.ofText outDir) = .ok p ∧ folder = Place.follow [] p
  file : ∃ files, (Discovery.find tree s.working .exchange paths).mapM tree.documentAt = .ok files ∧
    f ∈ files.flatten

/-- What writing the translated files in documents comes to, and the files that there are then. -/
inductive Imports (s : Surroundings) (paths : List Text) (outDir : Text) (before : FileTree) :
    Except Failure Json → FileTree → Prop
  | nothing (report : Json) (hfound : Discovery.find before s.working .exchange paths = []) :
    Imports s paths outDir before (.ok report) before
  | unread {f : Failure}
    (hread : (Discovery.find before s.working .exchange paths).mapM before.documentAt = .error f) :
    Imports s paths outDir before (.error f) before
  | nowhere {files : List (List Xliff.LocalizedFile)} {fault : NameFault}
    (hread : (Discovery.find before s.working .exchange paths).mapM before.documentAt = .ok files)
    (hfolder : Place.resolve s.working (.ofText outDir) = .error fault) :
    Imports s paths outDir before (.error (.name fault)) before
  | written (report : Json) {files : List (List Xliff.LocalizedFile)} {folder : Place}
    {ws : List (Place × List UInt8)} {after : FileTree}
    (hread : (Discovery.find before s.working .exchange paths).mapM before.documentAt = .ok files)
    (hfolder : Place.resolve s.working (.ofText outDir) = .ok folder)
    (hws : List.Forall₂ PutBy (Naming.outputs folder files.flatten) ws)
    (hwritten : FileTree.Written ws before after) :
    Imports s paths outDir before (.ok report) after
  | stopped {f : Failure} {files : List (List Xliff.LocalizedFile)} {folder : Place}
    {ws : List (Place × List UInt8)} {after : FileTree}
    (hread : (Discovery.find before s.working .exchange paths).mapM before.documentAt = .ok files)
    (hfolder : Place.resolve s.working (.ofText outDir) = .ok folder)
    (hws : StopsAt (Naming.outputs folder files.flatten) f ws)
    (hwritten : FileTree.Written ws before after) :
    Imports s paths outDir before (.error f) after

theorem writeLocalized_eq (folder : Place) (f : Xliff.LocalizedFile) :
    writeLocalized folder f = do
      writeText (.ofPlace folder ++ Naming.localizedPath f) (translatedData f.messages).render
      return .ofPlace folder ++ Naming.localizedPath f := rfl

/-- Where an import puts what it puts, if it puts anything: at the places of translated files in
the output folder. -/
theorem Imports.place_of_changed {s : Surroundings} {paths : List Text} {outDir : Text}
    {before after : FileTree} {r : Except Failure Json} (h : Imports s paths outDir before r after)
    {q : Place} (hq : after.contents? q ≠ before.contents? q) :
    ∃ folder f, IsImported s paths outDir before folder f ∧
      q = FileTree.target folder (Naming.localizedPath f) := by
  suffices hput : ∃ folder files, Place.resolve s.working (.ofText outDir) = .ok folder ∧
      (Discovery.find before s.working .exchange paths).mapM before.documentAt = .ok files ∧
      ∃ o ∈ Naming.outputs folder files.flatten, q = FileTree.target [] o.1 by
    obtain ⟨folder, files, hfolder, hread, o, ho, rfl⟩ := hput
    obtain ⟨f, hf, rfl⟩ := List.mem_map.mp ho
    exact ⟨_, f, ⟨⟨folder, hfolder, rfl⟩, files, hread, hf⟩, FileTree.target_append _ _⟩
  cases h with
  | nothing report hfound => exact absurd rfl hq
  | unread hread => exact absurd rfl hq
  | nowhere hread hfolder => exact absurd rfl hq
  | written report hread hfolder hws hwritten =>
    obtain ⟨w, hw, rfl⟩ := hwritten.mem_of_changed hq
    obtain ⟨o, ho, hput⟩ := exists_of_forall₂ hws.flip w hw
    exact ⟨_, _, hfolder, hread, o, ho, hput.1⟩
  | stopped hread hfolder hws hwritten =>
    obtain ⟨w, hw, rfl⟩ := hwritten.mem_of_changed hq
    exact ⟨_, _, hfolder, hread, hws.place_of_mem hw⟩

/-- Every translated file has its file once the import is done. -/
theorem Imports.isSome_of_ok {s : Surroundings} {paths : List Text} {outDir : Text}
    {before after : FileTree} {report : Json} (h : Imports s paths outDir before (.ok report) after)
    {folder : Place} {f : Xliff.LocalizedFile} (hf : IsImported s paths outDir before folder f) :
    (after.contents? (FileTree.target folder (Naming.localizedPath f))).isSome := by
  obtain ⟨⟨p, hp, rfl⟩, files, hfiles, hmem⟩ := hf
  cases h with
  | nothing _ hfound =>
    rw [hfound] at hfiles
    obtain rfl := Except.ok.inj hfiles
    cases hmem
  | written _ hread hfolder hws hwritten =>
    obtain rfl := Except.ok.inj (hread.symm.trans hfiles)
    obtain rfl := Except.ok.inj (hfolder.symm.trans hp)
    obtain ⟨w, hw, hput⟩ := exists_of_forall₂ hws _ (List.mem_map_of_mem hmem)
    rw [← FileTree.target_append, ← hput.1]
    exact hwritten.isSome_of_mem hw

theorem after_readExchange (s : Surroundings) (paths : List Text) (outDir : Text) (w : Workspace) :
    ∃ r w', (readExchange s paths outDir).after w = (r, w') ∧
      Imports s paths outDir w.tree r w'.tree := by
  unfold readExchange
  rw [after_bind, after_find]
  dsimp only
  split
  · rename_i hempty
    exact ⟨_, w, rfl, .nothing _ (List.isEmpty_iff.mp hempty)⟩
  obtain ⟨f, w₁, hread, hafter, htree₁⟩ | ⟨files, w₁, hread, hafter, htree₁⟩ :=
    (Reads.mapM reads_readDocument).after_bind _ w
  · refine ⟨_, w₁, hafter, ?_⟩
    rw [htree₁]
    exact .unread hread
  rw [hafter]
  obtain ⟨e, w₂, hfolder, hafter, htree₂⟩ | ⟨folder, w₂, hfolder, hafter, htree₂⟩ :=
    (reads_resolve s outDir).after_bind _ w₁
  · refine ⟨_, w₂, hafter, ?_⟩
    rw [htree₂, htree₁]
    obtain ⟨fault, hfault, rfl⟩ := mapError_eq_error_iff.mp hfolder
    exact .nowhere hread hfault
  have hfolder := mapError_eq_ok_iff.mp hfolder
  rw [htree₁] at htree₂
  rw [hafter, after_bind]
  obtain ⟨ws, w₃, hafter, hws, hwritten⟩ | ⟨f, ws, w₃, hafter, hws, hwritten⟩ :=
    after_writeAll (fun f : Xliff.LocalizedFile =>
      (Path.ofPlace folder ++ Naming.localizedPath f, (translatedData f.messages).render))
      (fun f (_ : f ∈ files.flatten) => writeLocalized_eq folder f) w₂
  · rw [hafter]
    exact ⟨_, w₃, rfl, .written _ hread hfolder hws (htree₂ ▸ hwritten)⟩
  · rw [hafter]
    exact ⟨_, w₃, rfl, .stopped hread hfolder hws (htree₂ ▸ hwritten)⟩

end Commands

namespace Program

theorem after_import (s : Surroundings) (tree : FileTree) {c : CommandLine.Command}
    {paths : List Text} {outDir : Text} (hc : c = .readExchange paths outDir) :
    ∃ r w, (Commands.run s c).after { tree } = (r, w) ∧
      Commands.Imports s paths outDir tree r w.tree := by
  obtain rfl := hc
  exact Commands.after_readExchange s paths outDir { tree }

/-- A document that is text but no document of translations fails the run, whichever of the
documents it is, and the tree is what it was. If all documents are text, the first of the kind says why. -/
theorem run_import_refused (s : Surroundings) (tree : FileTree) {arguments : List Text}
    {i : CommandLine.Invocation} (hi : CommandLine.Invocation.ofArguments arguments = .ok i)
    {paths : List Text} {outDir : Text} (hcommand : i.command = .readExchange paths outDir)
    (hrefused : ∃ place ∈ Discovery.find tree s.working .exchange paths, ∃ cs e,
      tree.readText [] (.ofPlace place) = .ok cs ∧ (Xliff.importDocument cs).1 = .error e) :
    (run s tree arguments).exitCode = 1 ∧ (run s tree arguments).workspace.tree = tree ∧
      ((∀ place ∈ Discovery.find tree s.working .exchange paths, ∃ cs,
          tree.readText [] (.ofPlace place) = .ok cs) →
        ∃ before place after cs e,
          Discovery.find tree s.working .exchange paths = before ++ place :: after ∧
          (∀ p ∈ before, ∃ cs files, tree.readText [] (.ofPlace p) = .ok cs ∧
            (Xliff.importDocument cs).1 = .ok files) ∧
          tree.readText [] (.ofPlace place) = .ok cs ∧ (Xliff.importDocument cs).1 = .error e ∧
          (run s tree arguments).ending = .failed (.exchange e)) := by
  obtain ⟨r, w, hafter, himports⟩ := after_import s tree hcommand
  rw [run_eq hi hafter]
  obtain ⟨place, hplace, cs, e, hcs, he⟩ := hrefused
  have hnone : ∀ files, (Discovery.find tree s.working .exchange paths).mapM tree.documentAt ≠
      .ok files := by
    intro files hfiles
    obtain ⟨fs, -, hfs⟩ := exists_of_forall₂ (mapM_eq_ok_iff.mp hfiles) place hplace
    simp [FileTree.documentAt_eq_ok_iff, hcs, he] at hfs
  cases himports with
  | nothing report hfound => simp [hfound] at hplace
  | nowhere hread hfolder => exact absurd hread (hnone _)
  | written report hread hfolder hws hwritten => exact absurd hread (hnone _)
  | stopped hread hfolder hws hwritten => exact absurd hread (hnone _)
  | unread hread =>
    refine ⟨rfl, rfl, fun htexts => ?_⟩
    obtain ⟨before, p, after, hfound, hp, hbefore⟩ := mapM_eq_error hread
    obtain ⟨cs, hcs⟩ := htexts p (by simp [hfound])
    rw [FileTree.documentAt_of_text hcs] at hp
    obtain ⟨e, he, rfl⟩ := mapError_eq_error_iff.mp hp
    refine ⟨before, p, after, cs, e, hfound, fun q hq => ?_, hcs, he, rfl⟩
    obtain ⟨files, hfiles⟩ := hbefore q hq
    obtain ⟨ds, hds, hdocument⟩ := FileTree.documentAt_eq_ok_iff.mp hfiles
    exact ⟨ds, files, hds, hdocument⟩

/-- A document with one translated file of a name. -/
def translatedDocument (name : String) : List Char :=
  ("<xliff><file original=\"" ++ name ++ "\" target-language=\"de\"><body>" ++
    "<trans-unit id=\"k\"><target>t</target></trans-unit></body></file></xliff>").toList

/-- A document that could be imported, and one without files. -/
def refusedTree : FileTree where
  files := [(["a.xlf"], Utf8.encode (translatedDocument "a")),
    (["b.xlf"], Utf8.encode "<xliff/>".toList)]

/-- The second document is refused, and nothing is written for the first. -/
theorem run_import_refused_second :
    let o := run offline refusedTree ["import-xlf", "a.xlf", "b.xlf"]
    o.exitCode = 1 ∧ o.workspace.tree = refusedTree ∧ ∃ e, o.ending = .failed (.exchange e) := by
  intro o
  have hi : ∃ i, CommandLine.Invocation.ofArguments ["import-xlf", "a.xlf", "b.xlf"] = .ok i ∧
      i.command = .readExchange ["a.xlf", "b.xlf"] "." := ⟨_, rfl, by decide +kernel⟩
  have hfound : Discovery.find refusedTree [] .exchange ["a.xlf", "b.xlf"] =
      ([["a.xlf"], ["b.xlf"]] : List Place) :=
    Discovery.find_eq (by decide +kernel) (by decide +kernel)
  have hfine : refusedTree.readText [] (.ofPlace ["a.xlf"]) = .ok (translatedDocument "a") := by
    decide +kernel
  have hread : refusedTree.readText [] (.ofPlace ["b.xlf"]) = .ok "<xliff/>".toList := by
    decide +kernel
  have hrefused : (Xliff.importDocument "<xliff/>".toList).1 = .error .missingNodes := by
    decide +kernel
  have hmem : (["b.xlf"] : Place) ∈ Discovery.find refusedTree [] .exchange ["a.xlf", "b.xlf"] := by
    simp [hfound]
  have htexts : ∀ p ∈ Discovery.find refusedTree [] .exchange ["a.xlf", "b.xlf"],
      ∃ cs, refusedTree.readText [] (.ofPlace p) = .ok cs := by
    rw [hfound, List.forall_mem_cons, List.forall_mem_singleton]
    exact ⟨⟨_, hfine⟩, ⟨_, hread⟩⟩
  obtain ⟨i, hi, hcommand⟩ := hi
  obtain ⟨hexit, htree, hfirst⟩ := run_import_refused offline refusedTree hi hcommand
    ⟨_, hmem, _, _, hread, hrefused⟩
  obtain ⟨-, -, -, -, e, -, -, -, -, hending⟩ := hfirst htexts
  exact ⟨hexit, htree, e, hending⟩

/-- What an import creates or changes are files at the places to which the names and languages of
translated files lead from the output folder, and an import that is done leaves a file at each. The
place is in the folder if the path descends, as it does where neither name nor language has a slash;
any other path leads out of some folder. -/
theorem run_import_places (s : Surroundings) (tree : FileTree) {arguments : List Text}
    {i : CommandLine.Invocation} (hi : CommandLine.Invocation.ofArguments arguments = .ok i)
    {paths : List Text} {outDir : Text} (hcommand : i.command = .readExchange paths outDir) :
    (∀ q, (run s tree arguments).workspace.tree.contents? q ≠ tree.contents? q →
      ∃ folder f, Commands.IsImported s paths outDir tree folder f ∧
        q = FileTree.target folder (Naming.localizedPath f) ∧
        ((Naming.localizedPath f).Descends → Place.Below folder q)) ∧
    ((run s tree arguments).exitCode = 0 →
      ∀ folder f, Commands.IsImported s paths outDir tree folder f →
        ((run s tree arguments).workspace.tree.contents?
          (FileTree.target folder (Naming.localizedPath f))).isSome) ∧
    ∀ f, (Path.IsName f.name → Path.IsName f.language → (Naming.localizedPath f).Descends) ∧
      ((Naming.localizedPath f).Descends ↔
        ∀ folder, Place.Below folder (FileTree.target folder (Naming.localizedPath f))) := by
  obtain ⟨r, w, hafter, himports⟩ := after_import s tree hcommand
  rw [run_eq hi hafter]
  refine ⟨fun q hq => ?_, fun hexit folder f hf => ?_, fun f => ⟨fun hname hlanguage => ?_,
    Path.descends_iff⟩⟩
  · obtain ⟨folder, f, hf, hplace⟩ := himports.place_of_changed hq
    exact ⟨folder, f, hf, hplace, fun h => hplace ▸ Path.descends_iff.mp h folder⟩
  · cases r with
    | error f => simp [Outcome.exitCode, Ending.ofResult] at hexit
    | ok report => exact himports.isSome_of_ok hf
  · refine Path.descends_iff.mpr fun folder =>
      ⟨[Naming.translatedName f.name f.language], by simp, ?_⟩
    exact Naming.target_translatedName hname hlanguage folder

/-- A document with a file whose name leads out of any folder. -/
def outsideTree : FileTree where
  files := [(["in.xlf"], Utf8.encode (translatedDocument "../x"))]

/-- A translated file whose name begins with `..` is written beside the output folder. -/
theorem run_import_places_outside :
    let o := run offline outsideTree ["import-xlf", "in.xlf", "-o", "out"]
    o.exitCode = 0 ∧ outsideTree.contents? ["x.l10n.de.json"] = none ∧
      (o.workspace.tree.contents? ["x.l10n.de.json"]).isSome ∧
      ¬ Place.Below ["out"] ["x.l10n.de.json"] ∧
      ∃ f, ¬ (Naming.localizedPath f).Descends ∧
        FileTree.target ["out"] (Naming.localizedPath f) = ["x.l10n.de.json"] := by
  intro o
  have hi : ∃ i, CommandLine.Invocation.ofArguments ["import-xlf", "in.xlf", "-o", "out"] = .ok i ∧
      i.command = .readExchange ["in.xlf"] "out" := ⟨_, rfl, by decide +kernel⟩
  have hbefore : outsideTree.contents? ["x.l10n.de.json"] = none := by decide +kernel
  obtain ⟨hexit, hafter⟩ : o.exitCode = 0 ∧
      (o.workspace.tree.contents? ["x.l10n.de.json"]).isSome := by decide +kernel
  have hfolder : Place.resolve [] (.ofText "out") = .ok ["out"] := by decide +kernel
  have houtside : ¬ Place.Below ["out"] ["x.l10n.de.json"] := by
    rintro ⟨names, hnames, hplace⟩
    have hlen := congrArg List.length hplace
    simp at hlen
    exact hnames hlen
  obtain ⟨i, hi, hcommand⟩ := hi
  obtain ⟨hchanged, -⟩ := run_import_places offline outsideTree hi hcommand
  obtain ⟨folder, f, hf, hplace, hbelow⟩ := hchanged ["x.l10n.de.json"] (by
    rw [hbefore]
    exact Option.isSome_iff_ne_none.mp hafter)
  obtain ⟨p, hp, rfl⟩ := hf.folder
  obtain rfl : (["out"] : Place) = p := Except.ok.inj (hfolder.symm.trans hp)
  exact ⟨hexit, hbefore, hafter, houtside, f, fun h => houtside (hbelow h), hplace.symm⟩

end Program

end Localization
