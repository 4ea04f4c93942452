import Localization.Proofs.Xliff.FileReading
import Localization.Proofs.Xliff.Messages

/-! A document of bundles, with the languages and the targets that a translator added, is read as
the bundles: every key with the text of its own target. -/

namespace Localization.Xliff

open Xml Xml.Content LineReading

variable {t : Translation} {f : List Char → List Char} {newline : List Char} {bs : Bindings}

/-! The files of a document. -/

/-- A file of a document stands for a bundle that can be written and read. -/
def FileOf (b : Text × Bundle) (file : Text × List TransUnit) : Prop :=
  LegibleBundle b ∧ file.1 = b.1 ∧ List.Forall₂ UnitOf b.2 file.2

/-- The document of bundles with distinct names has a file for each. -/
theorem ofBundles_legible {bundles : Fields Bundle} (hkeys : bundles.keys.Nodup)
    (hbundles : ∀ b ∈ bundles, LegibleBundle b) (source : Text) :
    ∃ files, Document.ofBundles source bundles = .ok ⟨source, files⟩ ∧
      List.Forall₂ FileOf bundles files := by
  have hmessages : ∀ b ∈ bundles, ∀ e ∈ b.2, (Bundle.message? e.2).isSome := by
    intro b hb e he
    obtain ⟨-, _, _, -, hmessage, -⟩ := (hbundles b hb).legible e he
    exact Option.isSome_of_eq_some hmessage
  obtain ⟨files, hof, hfiles⟩ := ofBundles_files hmessages source
  rw [added_eq_self hkeys fun b hb => (hbundles b hb).nonempty] at hfiles
  refine ⟨files, hof, ((List.forall₂_and_left bundles files).mpr ⟨hbundles, hfiles⟩).imp ?_⟩
  rintro b file ⟨hb, hname, hunits⟩
  refine ⟨hb, hname.symm, ((List.forall₂_and_left b.2 file.2).mpr ⟨hb.legible, hunits⟩).imp ?_⟩
  exact fun e u h => h.2.unitOf h.1

/-! The document as it is written. -/

def rootTag : List Char :=
  "<xliff version=\"1.2\" xmlns=\"urn:oasis:names:tc:xliff:document:1.2\">".toList

def rootEnd : List Char := closingTag "xliff".toList

def documentOf (lss : List (List (List Char))) : List Char :=
  declaration ++ lines ['\r', '\n'] (rootTag :: lss.flatten ++ [rootEnd])

theorem join_documentOf (lss : List (List (List Char))) :
    Text.join crlf (.ofChars declaration :: .ofChars rootTag ::
      (lss.map fun ls => ls.map Text.ofChars).flatten ++ [.ofChars rootEnd]) =
      .ofChars (documentOf lss) := by
  rw [documentOf, ← join_lines declaration (rootTag :: lss.flatten ++ [rootEnd])]
  simp [List.map_flatten]

theorem translated?_legible {source : List Char} (hsource : Attribute.IsVerbatim source)
    {bundles : Fields Bundle} (t : Translation) {files : Fields (List TransUnit)}
    (hfiles : List.Forall₂ FileOf bundles files) :
    ∃ order lss,
      Document.translated? t ⟨.ofChars source, files⟩ = some (.ofChars (documentOf lss)) ∧
      order.Perm bundles ∧ List.Forall₂ (IsFileLines t) order lss := by
  obtain ⟨order, horder, hperm⟩ : ∃ order : Fields Bundle,
      List.Forall₂ (fun file b => FileOf b file) (Text.sortBy16 (·.1) files) order ∧
        order.Perm bundles :=
    List.perm_comp_forall₂ (Text.sortBy16_perm _ _) hfiles.flip
  obtain ⟨lss, hlss, hread⟩ := mapM_of_forall₂ (m := Option)
    (k := fun ls : List (List Char) => ls.map Text.ofChars)
    (g := fun file => Document.translatedLines? t (.ofChars source) file.1 file.2)
    (R := IsFileLines t) (horder.imp fun file b hb => by
      obtain ⟨hlegible, hname, hunits⟩ := hb
      obtain ⟨ls, hls, hread⟩ := fileLines_of hsource t hlegible hunits
      exact ⟨ls, by rw [hname]; exact hls, hread⟩)
  refine ⟨order, lss, ?_, hperm, hread⟩
  have hdeclaration : Text.ofString "<?xml version=\"1.0\" encoding=\"utf-8\"?>" =
      .ofChars declaration := rfl
  have hroot : Text.ofString
      "<xliff version=\"1.2\" xmlns=\"urn:oasis:names:tc:xliff:document:1.2\">" =
      .ofChars rootTag := rfl
  have hend : Text.ofString "</xliff>" = .ofChars rootEnd := rfl
  rw [Document.translated?, hlss, hdeclaration, hroot, hend, ← join_documentOf]
  rfl

theorem read_documentOf (hf : LineReading f newline) (lss : List (List (List Char))) :
    f (documentOf lss) = declaration ++ (newline ++ (rootTag ++
      ((lss.map fun ls => lines newline (ls.map f)).flatten ++ newline ++ rootEnd))) := by
  have hroot : f rootTag = rootTag := hf.of_not_mem (by decide +kernel)
  have hend : f rootEnd = rootEnd := hf.of_not_mem (by decide)
  have hdeclaration : f declaration = declaration := hf.of_not_mem (by decide +kernel)
  have hbetween : lss.flatten.map f = (lss.map fun ls => ls.map f).flatten := List.map_flatten
  rw [documentOf, hf.read_lines, hdeclaration, List.map_append, List.map_cons, hroot,
    List.map_singleton, hend, hbetween, lines_file, List.map_map]
  simp only [List.append_assoc, Function.comp_def]

/-! The document as it is read. -/

theorem opens_rootTag : ∃ e, Opens rootTag e ∧ e.written = "xliff".toList ∧
    e.name = "xliff".toList ∧ Bindings.Alike Namespace.standard e.bindings := by
  refine ⟨_, ⟨_, rfl, rfl, rfl⟩, rfl, rfl, fun q => ?_⟩
  simp [Namespace.find?]

/-- The element of a document with content, in which qualifiers stand for what they always stand
for. -/
theorem element_root (content : List Char) : ∃ bs, Bindings.Alike Namespace.standard bs ∧
    ∀ {nodes : List Node}, Holds bs content nodes → ∃ e : Element,
      element {} (rootTag ++ (content ++ rootEnd)) = .ok (e, []) ∧
        e.name = "xliff".toList ∧ e.content = nodes := by
  obtain ⟨e, hopens, hwritten, hname, hbindings⟩ := opens_rootTag
  obtain ⟨left, hclosing⟩ := token_closingTag (n := "xliff".toList) (by decide) []
  rw [List.append_nil, ← rootEnd, ← hwritten] at hclosing
  obtain ⟨bs, hbs, helement⟩ := element_tags hopens hclosing content
  exact ⟨bs, fun q => (hbindings q).trans (hbs q), fun hnodes =>
    ⟨_, helement hnodes, hname, rfl⟩⟩

/-- Lines of files are read as the files that bundles yield. -/
theorem files_read (hf : LineReading f newline) (hbs : Bindings.Alike Namespace.standard bs)
    {order : Fields Bundle} {lss : List (List (List Char))}
    (h : List.Forall₂ (IsFileLines t) order lss) (hcovers : t.Covers f order) :
    ∃ xs files, List.Forall₂ (Spaced bs) (lss.map fun ls => lines newline (ls.map f)) xs ∧
      (∀ x ∈ xs, x.name = "file".toList) ∧ filesOf xs = (.ok files, []) ∧
      List.Forall₂ (t.Yields f) order files := by
  induction h with
  | nil => exact ⟨[], [], .nil, by simp, rfl, .nil⟩
  | @cons b ls order lss hread _ ih =>
    obtain ⟨hlanguage, htargets⟩ := hcovers b (by simp)
    obtain ⟨x, file, hspaced, hname, hfile, hyields⟩ := hread hf hbs hlanguage htargets
    obtain ⟨xs, files, hxs, hnames, hfiles, hrest⟩ :=
      ih fun c hc => hcovers c (List.mem_cons_of_mem _ hc)
    refine ⟨x :: xs, file :: files, .cons hspaced hxs, by simpa [hname] using hnames, ?_,
      .cons hyields hrest⟩
    rw [filesOf, hfile, hfiles]
    rfl

/-- A document with elements of files is read as the element that holds them. -/
theorem readDocument_spaced (hf : LineReading f newline) (lss : List (List (List Char))) :
    ∃ bs, Bindings.Alike Namespace.standard bs ∧ ∀ {xs : List Element},
      List.Forall₂ (Spaced bs) (lss.map fun ls => lines newline (ls.map f)) xs →
      (∀ x ∈ xs, x.name = "file".toList) →
      ∃ e : Element, readDocument (f (documentOf lss)) = .ok e ∧ e.name = "xliff".toList ∧
        e.children "file" = xs := by
  obtain ⟨bs, hbs, helement⟩ :=
    element_root ((lss.map fun ls => lines newline (ls.map f)).flatten ++ newline)
  refine ⟨bs, hbs, fun {xs} hxs hnames => ?_⟩
  obtain ⟨blanks, hgap⟩ := charData_gap (isLineEnd hf) 0
  obtain ⟨nodes, hholds, helements⟩ := holds_spaced hxs (by simpa [indent] using hgap)
  obtain ⟨e, he, hname, hcontent⟩ := helement hholds
  refine ⟨e, ?_, hname, ?_⟩
  · rw [read_documentOf hf]
    exact readDocument_eq (isLineEnd hf) (c := 'x') (by decide) he
  · rw [children_eq, hcontent, helements, List.filter_eq_self]
    exact fun x hx => by simp [hnames x hx]

/-- What is read of a document with elements of files. -/
theorem read_spaced (hf : LineReading f newline) (lss : List (List (List Char))) :
    ∃ bs, Bindings.Alike Namespace.standard bs ∧ ∀ {xs : List Element},
      List.Forall₂ (Spaced bs) (lss.map fun ls => lines newline (ls.map f)) xs →
      (∀ x ∈ xs, x.name = "file".toList) →
      ∃ e : Element, read (f (documentOf lss)) = readElement e ∧ e.name = "xliff".toList ∧
        e.children "file" = xs := by
  obtain ⟨bs, hbs, hread⟩ := readDocument_spaced hf lss
  refine ⟨bs, hbs, fun hxs hnames => ?_⟩
  obtain ⟨e, hdocument, hname, hchildren⟩ := hread hxs hnames
  have hmargin : (f (documentOf lss)).dropWhile isMargin = f (documentOf lss) := by
    rw [read_documentOf hf]
    rfl
  exact ⟨e, by rw [read, hmargin, hdocument], hname, hchildren⟩

/-- A document with lines of files is read as these files, in the order of their names. -/
theorem read_files (hf : LineReading f newline) {order : Fields Bundle}
    {lss : List (List (List Char))} (h : List.Forall₂ (IsFileLines t) order lss)
    (hne : order ≠ []) (hcovers : t.Covers f order) : ∃ files,
      read (f (documentOf lss)) = (.ok (sortFiles files), []) ∧
      List.Forall₂ (t.Yields f) order files := by
  obtain ⟨bs, hbs, hread⟩ := read_spaced hf lss
  obtain ⟨xs, files, hxs, hnames, hfiles, hyields⟩ := files_read hf hbs h hcovers
  obtain ⟨e, he, hname, hchildren⟩ := hread hxs hnames
  refine ⟨files, ?_, hyields⟩
  have hsome : xs.isEmpty = false := by
    have hlen := hxs.length_eq
    have hlen2 := h.length_eq
    have := List.length_pos_iff.mpr hne
    rw [List.length_map] at hlen
    rw [List.isEmpty_eq_false_iff, ← List.length_pos_iff]
    omega
  rw [he, readElement, hchildren, hname]
  simp only [hsome, hfiles, Except.map, ne_eq, not_true_eq_false, decide_false, Bool.or_self,
    Bool.false_eq_true, if_false]

/-- A document of no bundles is written but not accepted, for it holds no file. -/
theorem read_rendered_nothing : ∃ d doc, Document.ofBundles "en" [] = .ok d ∧
    d.render? = some (.ofChars doc) ∧ read doc = (.error .missingNodes, []) := by
  have hrender : Document.render? ⟨"en", []⟩ = some (.ofChars (documentOf [])) := by
    rw [Document.render?, Text.sortBy16, List.mergeSort_nil]
    rfl
  -- There are no files to be read, and reading checks that first.
  obtain ⟨bs, -, hread⟩ := read_spaced .exact []
  obtain ⟨e, he, hname, hchildren⟩ := hread .nil (by simp)
  refine ⟨⟨"en", []⟩, documentOf [], rfl, hrender, he.trans ?_⟩
  simp [readElement, hname, hchildren]

/-! The round trip. -/

/-- Bundles with distinct names make up a document that can be read, once a translator has added a
language to every file and a target to every unit. The files that are read are those of the bundles,
in the order of their names, with the keys that the units are read under. -/
theorem read_legible {source : List Char} (hsource : Attribute.IsVerbatim source)
    {bundles : Fields Bundle} (hne : bundles ≠ []) (hkeys : bundles.keys.Nodup)
    (hbundles : ∀ b ∈ bundles, LegibleBundle b) (t : Translation) :
    ∃ d doc, Document.ofBundles (.ofChars source) bundles = .ok d ∧ d.render?.isSome ∧
      d.translated? t = some (.ofChars doc) ∧
      ∀ f newline, LineReading f newline → t.Covers f bundles →
        ∃ files order, read (f doc) = (.ok files, []) ∧ order.Perm bundles ∧
          List.Forall₂ (t.Yields f) order files ∧
          files.Pairwise fun a b => Text.nameLe a.name b.name = true := by
  obtain ⟨files, hof, hfiles⟩ := ofBundles_legible hkeys hbundles (.ofChars source)
  obtain ⟨order, lss, htranslated, hperm, hread⟩ := translated?_legible hsource t hfiles
  refine ⟨⟨.ofChars source, files⟩, documentOf lss, hof, ?_, htranslated, ?_⟩
  · obtain ⟨-, _, hplain, -⟩ := translated?_legible hsource ⟨fun _ => none, fun _ _ => none⟩ hfiles
    rw [← Document.translated?_nothing, hplain]
    rfl
  · intro f newline hf hcovers
    have horder : order ≠ [] := fun h => hne (by simpa [h] using hperm.symm)
    obtain ⟨found, hfound, hyields⟩ := read_files hf hread horder
      fun b hb => hcovers b (hperm.mem_iff.mp hb)
    have hsorted : (sortFiles found).Perm found := List.mergeSort_perm _ _
    obtain ⟨order', hyields', hperm'⟩ := List.perm_comp_forall₂ hsorted hyields.flip
    exact ⟨sortFiles found, order', hfound, hperm'.trans hperm, hyields'.flip,
      sortFiles_pairwise found⟩

/-- Bundles with distinct names make up a document, which can be read, as it is or with other line
ends, once a translator has added a language to every file and a target to every unit. The files
that are read are those of the bundles, in the order of their names, and the messages of each are
those of its bundle: they have the same keys, in order, each with the text of the target added to
its own unit. -/
theorem read_translated {source : List Char} (hsource : Attribute.IsVerbatim source)
    {bundles : Fields Bundle} (hne : bundles ≠ []) (hkeys : bundles.keys.Nodup)
    (hbundles : ∀ b ∈ bundles, CarriedBundle b) (t : Translation) :
    ∃ d doc, Document.ofBundles (.ofChars source) bundles = .ok d ∧ d.render?.isSome ∧
      d.translated? t = some (.ofChars doc) ∧
      ∀ f newline, LineReading f newline → t.Covers f bundles →
        ∃ files order, read (f doc) = (.ok files, []) ∧ order.Perm bundles ∧
          List.Forall₂ (t.Returns f) order files ∧
          files.Pairwise fun a b => Text.nameLe a.name b.name = true := by
  obtain ⟨d, doc, hof, hrender, htranslated, hread⟩ := read_legible hsource hne hkeys
    (fun b hb => (hbundles b hb).legible) t
  refine ⟨d, doc, hof, hrender, htranslated, fun f newline hf hcovers => ?_⟩
  obtain ⟨files, order, hfiles, hperm, hyields, hsorted⟩ := hread f newline hf hcovers
  refine ⟨files, order, hfiles, hperm, ?_, hsorted⟩
  have hcarried : ∀ b ∈ order, CarriedBundle b := fun b hb => hbundles b (hperm.mem_iff.mp hb)
  have hboth := (List.forall₂_and_left order files).mpr ⟨hcarried, hyields⟩
  exact hboth.imp fun b file h => h.2.returns h.1

/-- A message with a comment is translated, and the document is read with LF at the ends of its
lines. -/
theorem read_translated_open :
    let bundles : Fields Bundle := [("bundle", [("Open \"it\"/verb",
      .object [("message", .string "Open \"it\""), ("comment", .array [.string "verb"])])])]
    let t : Translation := {
      language := fun _ => some ⟨2, "DE".toList⟩
      target := fun _ _ =>
        some ⟨1, "\r\n      <target>&amp;quot;Es&amp;quot; öffnen</target>".toList⟩ }
    ∃ d doc, Document.ofBundles "en" bundles = .ok d ∧ d.translated? t = some (.ofChars doc) ∧
      read (plainLines doc) =
        (.ok [⟨"bundle", "de", [("Open \"it\"/verb", "\"Es\" öffnen")]⟩], []) := by
  intro bundles t
  have hbundle : CarriedBundle ("bundle", [("Open \"it\"/verb",
      .object [("message", .string "Open \"it\""), ("comment", .array [.string "verb"])])]) := by
    have hname : Attribute.IsVerbatim "bundle".toList :=
      isVerbatim_of_isIdChar (List.all_eq_true.mp (by decide))
    refine ⟨⟨"bundle".toList, rfl, by decide, hname⟩, by simp, by decide, ?_⟩
    intro e he
    obtain rfl := by simpa using he
    refine ⟨"Open \"it\"".toList, ["verb".toList], rfl, rfl, by decide,
      List.all_eq_true.mp (by decide), ?_⟩
    intro cs hcs
    obtain rfl := by simpa using hcs
    refine ⟨by decide, fun c hc => ?_⟩
    have hall : ∀ c ∈ "verb".toList, (isLegal c && c != '\r' && c != '\n') = true :=
      List.all_eq_true.mp (by decide)
    simpa [and_assoc] using hall c hc
  have hcovers : t.Covers plainLines bundles := by
    intro b hb
    obtain rfl := by simpa [bundles] using hb
    refine ⟨by decide +kernel, fun e he => ?_⟩
    obtain rfl := by simpa using he
    decide +kernel
  obtain ⟨d, doc, hd, -, hdoc, hread⟩ := read_translated isVerbatim_en
    (by simp : bundles ≠ []) (by decide) (by simpa [bundles] using hbundle) t
  obtain ⟨files, order, hfiles, hperm, hyields, -⟩ := hread _ _ .plain hcovers
  refine ⟨d, doc, hd, hdoc, ?_⟩
  obtain rfl : order = bundles := List.perm_singleton.mp hperm
  obtain ⟨file, rest, hfile, hrest, rfl⟩ := List.forall₂_cons_left_iff.mp hyields
  obtain rfl := List.forall₂_nil_left_iff.mp hrest
  obtain ⟨hname, ⟨cs, hcs, hlanguage⟩, hmessages, -⟩ := hfile
  have hde : t.language? plainLines "bundle" = some "DE".toList := by decide +kernel
  have hlower : Text.lower "DE" = "de" := by decide +kernel
  have hmessage : t.message plainLines "bundle" "Open \"it\"/verb" = "\"Es\" öffnen" := by
    decide +kernel
  obtain rfl : "DE".toList = cs := Option.some.inj (hde.symm.trans hcs)
  obtain ⟨name, language, messages⟩ := file
  obtain rfl : name = "bundle" := hname
  obtain rfl : language = "de" := hlanguage.trans hlower
  have hall : messages = [(_, t.message plainLines "bundle" "Open \"it\"/verb")] :=
    List.perm_singleton.mp hmessages
  rw [hfiles, hall, hmessage]

end Localization.Xliff
