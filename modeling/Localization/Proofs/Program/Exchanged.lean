import Localization.Proofs.File.Found
import Localization.Proofs.Program.Failed
import Localization.Proofs.Program.Reads
import Localization.Proofs.Program.Writes
import Localization.Proofs.Xliff.Held

/-! Runs that write bundles as one exchange document. Bundles are told apart by the names of their
files alone, so bundles in different folders may have one name. -/

namespace Localization

/-- The bundle in the file at a place, under its name. -/
def FileTree.namedAt (t : FileTree) (place : Place) : Except Failure (Text × Bundle) :=
  match Naming.bundleName? (.ofPlace place) with
  | none => .error (.notBundle (.ofPlace place))
  | some name => do return (name, ← t.bundleAt place)

/-- A bundle of texts is known by its texts. -/
theorem Bundle.eq_of_texts {b : Bundle} {entries : Fields Text}
    (h : b.map (fun e => (e.1, e.2.string?)) = entries.map fun e => (e.1, some e.2)) :
    b = entries.map fun e => (e.1, .string e.2) := by
  induction b generalizing entries with
  | nil =>
    obtain rfl := List.map_eq_nil_iff.mp h.symm
    rfl
  | cons e b ih =>
    cases entries with
    | nil => cases h
    | cons f entries =>
      obtain ⟨hentry, hrest⟩ := List.cons.inj h
      obtain ⟨hkey, hvalue⟩ := Prod.mk.inj hentry
      have hstring : e.2 = .string f.2 := by
        cases hv : e.2 <;> rw [hv] at hvalue <;> simp_all [Json.string?]
      rw [List.map_cons, ← ih hrest, ← hkey, ← hstring]

theorem FileTree.bundleAt_eq_ok {t : FileTree} {place : Place} (entries : Fields Text)
    (h : (t.bundleAt place).toOption.map (fun b => b.map fun e => (e.1, e.2.string?)) =
      some (entries.map fun e => (e.1, some e.2))) :
    t.bundleAt place = .ok (entries.map fun e => (e.1, .string e.2)) := by
  cases hb : t.bundleAt place with
  | error f =>
    rw [hb] at h
    cases h
  | ok b =>
    rw [hb] at h
    rw [Bundle.eq_of_texts (Option.some.inj h)]

namespace Commands

open Localization.Task Xliff

theorem reads_readNamed (place : Place) : Reads (readNamed place) fun t => t.namedAt place := by
  unfold readNamed FileTree.namedAt
  dsimp only
  cases Naming.bundleName? (.ofPlace place) with
  | none => exact .throw _
  | some name => exact .bind (.readBundle place) fun b => .pure (name, b)

/-- The text of the document of bundles. -/
def documentText (language : Text) (bundles : Fields Bundle) : Except Failure Text := do
  let d ← (Document.ofBundles language bundles).mapError .shape
  match d.render? with
  | some t => .ok t
  | none => .error .emptyUnit

theorem documentText_eq_ok_iff {language : Text} {bundles : Fields Bundle} {t : Text} :
    documentText language bundles = .ok t ↔
      ∃ d, Document.ofBundles language bundles = .ok d ∧ d.render? = some t := by
  simp only [documentText, bind_eq_ok_iff, mapError_eq_ok_iff]
  refine exists_congr fun d => and_congr_right fun _ => ?_
  cases d.render? <;> simp

theorem reads_exchangeText (language : Text) (bundles : Fields Bundle) :
    Reads (exchangeText language bundles) fun _ => documentText language bundles := by
  refine .bind (.ofExcept .shape _) fun d => ?_
  cases d.render? with
  | some t => exact .pure t
  | none => exact .throw .emptyUnit

/-- What is there once bundles are written as a document. -/
structure Exchanges (s : Surroundings) (paths : List Text) (outFile language : Text)
    (before after : FileTree) (bundles : List (Text × Bundle)) (d : Document) (cs : List Char) :
    Prop where
  read : List.Forall₂ (fun place b => before.namedAt place = .ok b)
    (Discovery.find before s.working .bundle paths) bundles
  document : Document.ofBundles language (.ofList bundles) = .ok d
  text : d.render? = some (.ofChars cs)
  written : ∃ output, Place.resolve s.working (.ofText outFile) = .ok output ∧
    after.contents? (FileTree.target [] (.ofPlace output)) = some (Utf8.encode cs)

theorem after_writeExchange (s : Surroundings) (paths : List Text) (outFile language : Text)
    (w : Workspace) : ∃ r w', (writeExchange s paths outFile language).after w = (r, w') ∧
      ∀ report, r = .ok report → Discovery.find w.tree s.working .bundle paths ≠ [] →
        ∃ bundles d cs, Exchanges s paths outFile language w.tree w'.tree bundles d cs := by
  unfold writeExchange
  rw [after_bind, after_find]
  dsimp only
  obtain ⟨f, w₁, -, hafter, -⟩ | ⟨bundles, w₁, hread, hafter, -⟩ :=
    (Reads.mapM reads_readNamed).after_bind _ w
  · exact ⟨_, w₁, hafter, by simp⟩
  have hbundles := mapM_eq_ok_iff.mp hread
  rw [hafter]
  split
  · rename_i hempty
    refine ⟨_, w₁, rfl, fun _ _ hne => absurd ?_ hne⟩
    rw [Fields.ofList_eq_nil_iff.mp (List.isEmpty_iff.mp hempty)] at hbundles
    exact List.forall₂_nil_right_iff.mp hbundles
  rw [after_bind, after_say]
  dsimp only
  obtain ⟨f, w₂, -, hafter, -⟩ | ⟨t, w₂, ht, hafter, -⟩ :=
    (reads_exchangeText language (.ofList bundles)).after_bind _ { w₁ with notices := _ }
  · exact ⟨_, w₂, hafter, by simp⟩
  rw [hafter]
  obtain ⟨f, w₃, -, hafter, -⟩ | ⟨output, w₃, houtput, hafter, -⟩ :=
    (reads_resolve s outFile).after_bind _ w₂
  · exact ⟨_, w₃, hafter, by simp⟩
  rw [hafter, after_bind]
  obtain ⟨⟨place, bytes⟩, w₄, hafter, ⟨hplace, cs, rfl, hbytes⟩, hwritten⟩ |
      ⟨f, ws, w₄, hafter, -, -⟩ := after_writeText (.ofPlace output, t) w₃
  · rw [hafter]
    refine ⟨_, w₄, rfl, fun _ _ _ => ?_⟩
    obtain ⟨d, hd, hrender⟩ := documentText_eq_ok_iff.mp ht
    refine ⟨bundles, d, cs, hbundles, hd, hrender, output, mapError_eq_ok_iff.mp houtput, ?_⟩
    rw [← hbytes, ← hplace, hwritten place]
    simp
  · rw [hafter]
    exact ⟨_, w₄, rfl, by simp⟩

end Commands

namespace Program

/-- A run that is done with bundles that are found leaves a document of them. It holds an entry of a
bundle exactly if the last bundle of the name has an entry with the same unit, as the bundle itself
does if it is the last. So no entry is lost where no two bundles have one name. What the document
holds stands in its text, in a file of the name. -/
theorem run_exchange_holds (s : Surroundings) (tree : FileTree) {arguments : List Text}
    {i : CommandLine.Invocation} (hi : CommandLine.Invocation.ofArguments arguments = .ok i)
    {paths : List Text} {outFile language : Text}
    (hcommand : i.command = .writeExchange paths outFile language)
    (hexit : (run s tree arguments).exitCode = 0)
    (hfound : Discovery.find tree s.working .bundle paths ≠ []) :
    ∃ bundles d cs, Commands.Exchanges s paths outFile language tree
        (run s tree arguments).workspace.tree bundles d cs ∧
      (∀ b ∈ bundles, ∀ e ∈ b.2, (d.Holds b.1 e ↔ ∃ c, Fields.IsLast bundles c ∧ c.1 = b.1 ∧
        ∃ f ∈ c.2, Xliff.TransUnit.ofEntry f.1 f.2 = Xliff.TransUnit.ofEntry e.1 e.2)) ∧
      (∀ b, Fields.IsLast bundles b → ∀ e ∈ b.2, d.Holds b.1 e) ∧
      ((Fields.keys bundles).Nodup → ∀ b ∈ bundles, ∀ e ∈ b.2, d.Holds b.1 e) ∧
      ∀ name e, d.Holds name e → ∃ u, Xliff.TransUnit.ofEntry e.1 e.2 = .ok u ∧
        Xliff.HasUnit (.ofChars cs) language name u := by
  obtain ⟨r, w, hafter, hdone⟩ := Commands.after_writeExchange s paths outFile language { tree }
  have hafter : (Commands.run s i.command).after { tree } = (r, w) := by rw [hcommand]; exact hafter
  rw [run_eq hi hafter] at hexit ⊢
  cases r with
  | error f => simp [Outcome.exitCode, Ending.ofResult] at hexit
  | ok report =>
    obtain ⟨bundles, d, cs, h⟩ := hdone report rfl hfound
    have hheld := @Xliff.holds_iff _ _ _ h.document
    have hlast : ∀ b, Fields.IsLast bundles b → ∀ e ∈ b.2, d.Holds b.1 e :=
      fun b hb e he => hheld.mpr ⟨b, hb, rfl, e, he, rfl⟩
    refine ⟨bundles, d, cs, h, fun b _ e _ => hheld, hlast,
      fun hnames b hb => hlast b (.of_nodup hnames hb), fun name e he => ?_⟩
    obtain ⟨u, hu, hunit⟩ := he.hasUnit h.text
    rw [(Xliff.files_of_ofBundles h.document).1] at hunit
    exact ⟨u, hu, hunit⟩

/-- Two bundles of one name in different folders. -/
def namesakes : FileTree where
  files := [(["a", "m.l10n.json"], Utf8.encode "\x7b\"x\": \"y\"\x7d".toList),
    (["b", "m.l10n.json"], Utf8.encode "\x7b\"u\": \"v\"\x7d".toList)]

theorem find_namesakes : Discovery.find namesakes [] .bundle ["a", "b"] =
    ([["a", "m.l10n.json"], ["b", "m.l10n.json"]] : List Place) :=
  Discovery.find_eq (by decide +kernel) (by decide +kernel)

theorem after_namesakes :
    ((Commands.run offline (.writeExchange ["a", "b"] "out.xlf" "en")).after
      { tree := namesakes }).1.isOk = true := by
  rw [Commands.run, Commands.writeExchange, Task.after_bind, Task.after_find]
  simp only [show offline.working = [] from rfl, find_namesakes]
  decide +kernel

/-- Of two bundles of one name only the second is in the document. -/
theorem run_exchange_holds_namesakes :
    let o := run offline namesakes ["generate-xlf", "a", "b", "-o", "out.xlf"]
    o.exitCode = 0 ∧ ∃ (d : Xliff.Document) (cs : List Char), d.render? = some (.ofChars cs) ∧
      o.workspace.tree.contents? ["out.xlf"] = some (Utf8.encode cs) ∧
      d.Holds "m" ("u", .string "v") ∧ ¬ d.Holds "m" ("x", .string "y") := by
  intro o
  have hi : ∃ i, CommandLine.Invocation.ofArguments ["generate-xlf", "a", "b", "-o", "out.xlf"] =
      .ok i ∧ i.command = .writeExchange ["a", "b"] "out.xlf" "en" := ⟨_, rfl, by decide +kernel⟩
  have hfirst : namesakes.namedAt ["a", "m.l10n.json"] = .ok ("m", [("x", .string "y")]) := by
    rw [FileTree.namedAt, FileTree.bundleAt_eq_ok [("x", "y")] (by decide +kernel)]
    rfl
  have hsecond : namesakes.namedAt ["b", "m.l10n.json"] = .ok ("m", [("u", .string "v")]) := by
    rw [FileTree.namedAt, FileTree.bundleAt_eq_ok [("u", "v")] (by decide +kernel)]
    rfl
  have hbundles : (Discovery.find namesakes [] .bundle ["a", "b"]).mapM namesakes.namedAt =
      .ok [("m", [("x", .string "y")]), ("m", [("u", .string "v")])] := by
    rw [find_namesakes]
    exact mapM_eq_ok_iff.mpr (.cons hfirst (.cons hsecond .nil))
  have hplace : Place.resolve [] (.ofText "out.xlf") = .ok ["out.xlf"] := by decide +kernel
  have hdistinct : Xliff.TransUnit.ofEntry "u" (.string "v") ≠
      Xliff.TransUnit.ofEntry "x" (.string "y") := by decide +kernel
  obtain ⟨i, hi, hcommand⟩ := hi
  obtain ⟨report, hreport⟩ := exists_of_isOk after_namesakes
  have hexit : o.exitCode = 0 := by
    rw [Outcome.exitCode, ending_eq hi (hcommand ▸ hreport)]
    rfl
  obtain ⟨bundles, d, cs, ⟨hread, -, hrender, output, houtput, hwritten⟩, hiff, hlast, -, -⟩ :=
    run_exchange_holds offline namesakes hi hcommand hexit (by
      rw [show offline.working = [] from rfl, find_namesakes]
      exact List.cons_ne_nil _ _)
  obtain rfl := Except.ok.inj (hbundles.symm.trans (mapM_eq_ok_iff.mpr hread))
  obtain rfl := Except.ok.inj (hplace.symm.trans houtput)
  refine ⟨hexit, d, cs, hrender, hwritten, ?_, ?_⟩
  · exact hlast ("m", [("u", .string "v")]) ⟨[_], [], rfl, by simp⟩ _ (by simp)
  · rw [hiff ("m", [("x", .string "y")]) (by simp) _ (by simp)]
    rintro ⟨c, hc, -, f, hf, hsame⟩
    have hmem := Fields.mem_ofList_iff.mpr hc
    simp only [Fields.ofList, List.foldl_cons, List.foldl_nil, Fields.put, if_true,
      List.mem_singleton] at hmem
    obtain rfl := hmem
    obtain rfl := List.mem_singleton.mp hf
    exact hdistinct hsame

end Program

end Localization
