import Localization.Proofs.Xliff.Rendered
import Localization.Proofs.Xml.Verbatim

/-! When a rendered document can be read, with the files that were added to it. Names of files are
written as they are, and characters that XML cannot hold have no entities. -/

namespace Localization.Xliff

open Xml Xml.Content LineReading

/-- The lines of files in a document that can be read are legal. -/
theorem legalText_of_readDocument {cs : List Char} {root : Element} (h : readDocument cs = .ok root)
    {lss : List (List Text)}
    (hcs : Text.ofChars cs = Text.join crlf (.ofChars declaration :: .ofChars rootTag ::
      lss.flatten ++ [.ofChars rootEnd])) : ∀ ls ∈ lss, ∀ l ∈ ls, LegalText l := by
  have hjoin : Text.ofChars cs = .ofChars (declaration ++ ['\r', '\n']) ++
      Text.join crlf (.ofChars rootTag :: lss.flatten ++ [.ofChars rootEnd]) := by
    rw [hcs, List.cons_append, Text.join, Text.ofChars_append]
    · rfl
    · simp
  obtain ⟨body, rfl, hbody⟩ := Text.exists_of_ofChars_eq_append hjoin
  have hroot : Text.ofChars body = .ofChars ['<', 'x'] ++
      (.ofChars (rootTag.drop 2) ++ crlf ++ Text.join crlf (lss.flatten ++ [.ofChars rootEnd])) := by
    rw [← hbody, List.cons_append, Text.join]
    · rfl
    · simp
  obtain ⟨more, rfl, -⟩ := Text.exists_of_ofChars_eq_append hroot
  rw [List.append_assoc] at h
  obtain ⟨-, hlegal⟩ := legal_of_readDocument (.inl rfl) (c := 'x') (by decide) h
  have hlines := LegalText.of_join (hbody ▸ legalText_ofChars.mpr hlegal)
  exact fun ls hls l hl => hlines l (mem_between hls hl)

/-- The line of a file up to its name. -/
def nameStart : List Char := indent 2 ++ "<file original=\"".toList

theorem lines_named (before after : List (List (List Char))) (name rest : List Char)
    (ls : List (List Char)) : ∃ more,
      ((before ++ ((nameStart ++ (name ++ '"' :: rest)) :: ls) :: after).map
        fun ls => lines ['\r', '\n'] (ls.map id)).flatten ++ ['\r', '\n'] ++ rootEnd =
      (before.map (lines ['\r', '\n'])).flatten ++ (['\r', '\n'] ++ indent 2) ++
        '<' :: ("file".toList ++ ' ' :: ("original".toList ++ '=' :: '"' :: (name ++ '"' ::
          more))) := by
  have hcons : ∀ l ls, lines ['\r', '\n'] (l :: ls) =
      ['\r', '\n'] ++ (l ++ lines ['\r', '\n'] ls) := by simp [lines]
  refine ⟨rest ++ (lines ['\r', '\n'] ls ++ ((after.map (lines ['\r', '\n'])).flatten ++
    ['\r', '\n'] ++ rootEnd)), ?_⟩
  simp [hcons, nameStart]

/-- In a document that can be read, a file behind others has what its name is read as for its name.
That is the name itself only if it needs no escape. -/
theorem original_of_readDocument {names : List Text} {before after : List (List (List Char))}
    (hbefore : List.Forall₂ ReadsFile names before) {name rest : List Char}
    {ls : List (List Char)} {root : Element}
    (h : readDocument (documentOf (before ++ ((nameStart ++ (name ++ '"' :: rest)) :: ls) :: after)) =
      .ok root) :
    ∃ xs x more value, root.children "file" = xs ++ x :: more ∧ xs.length = names.length ∧
      x.attribute? "original" = some value ∧ (value = name → Attribute.IsVerbatim name) := by
  have hnewline : IsLineEnd ['\r', '\n'] := .inl rfl
  obtain ⟨more, hmore⟩ := lines_named before after name rest ls
  have hread := read_documentOf .exact
    (before ++ ((nameStart ++ (name ++ '"' :: rest)) :: ls) :: after)
  rw [id_eq, hmore] at hread
  rw [hread] at h
  obtain ⟨r, helement⟩ : ∃ r, element {} (rootTag ++ _) = .ok (root, r) :=
    (legal_of_readDocument hnewline (c := 'x') (by decide) h).1
  obtain ⟨e, hopens, -, -, hbindings⟩ := opens_rootTag
  obtain ⟨blanks, hgap⟩ := charData_gap hnewline 2
  obtain ⟨xs, x, others, value, ⟨hnames, hlen⟩, helements, hname, horiginal, raw, left, after, hscan,
    hvalue⟩ := element_attribute hopens
      (P := fun xs => (∀ x ∈ xs, x.name = "file".toList) ∧ xs.length = names.length)
      (fun {bs} hbs => by
        obtain ⟨xs, hxs, hnames, horiginals⟩ :=
          readsFile_all (fun q => (hbindings q).trans (hbs q)) hbefore
        exact ⟨xs, hxs, hnames, by simpa using congrArg List.length horiginals⟩)
      hgap (n := "file".toList) (by decide) (a := ⟨none, "original".toList⟩) (by decide) rfl
      (by decide) helement
  refine ⟨xs, x, others.filter fun x => x.name = "file".toList, value, ?_, hlen, ?_, ?_⟩
  · rw [children_eq, helements, List.filter_append, List.filter_cons_of_pos (by simp [hname]),
      List.filter_eq_self.mpr fun x hx => by simp [hnames x hx]]
  · obtain ⟨first, hfirst⟩ := List.head?_eq_some_iff.mp horiginal
    rw [Element.attribute?, hfirst]
    rfl
  · rintro rfl
    exact isVerbatim_of_value hscan hvalue

/-! The files of a document, in the order of their names. -/

/-- Lines that are written for a bundle. -/
def LinesOf (source : Text) (b : Text × Bundle) (ls : List Text) : Prop :=
  ∃ file, FileFor b file ∧ Document.fileLines? source file.1 file.2 = some ls

theorem names_eq {bundles : Fields Bundle} {files : Fields (List TransUnit)}
    (h : List.Forall₂ FileFor bundles files) : bundles.map (·.1) = files.map (·.1) := by
  induction h with
  | nil => rfl
  | cons hb _ ih => rw [List.map_cons, List.map_cons, hb.1, ih]

/-- A rendered document has lines for its bundles, in the order of their names. -/
theorem render?_linesOf {bundles : Fields Bundle} {source : Text}
    {files : Fields (List TransUnit)} (hfiles : List.Forall₂ FileFor bundles files) {doc : Text}
    (h : Document.render? ⟨source, files⟩ = some doc) : ∃ order lss,
      List.Perm order bundles ∧ order.map (·.1) = Text.sortBy16 id bundles.keys ∧
      List.Forall₂ (LinesOf source) order lss ∧
      doc = Text.join crlf (.ofChars declaration :: .ofChars rootTag :: lss.flatten ++
        [.ofChars rootEnd]) := by
  obtain ⟨lss, hlss, hdoc⟩ := render?_eq_some h
  obtain ⟨order, horder, hperm⟩ : ∃ order : Fields Bundle,
      List.Forall₂ (fun file b => FileFor b file) (Text.sortBy16 (·.1) files) order ∧
        order.Perm bundles :=
    List.perm_comp_forall₂ (Text.sortBy16_perm _ _) hfiles.flip
  refine ⟨order, lss, hperm, ?_, forall₂_comp horder.flip hlss, hdoc⟩
  rw [names_eq horder.flip, Text.map_sortBy16, ← names_eq hfiles]
  rfl

theorem head_named {source name : Text} {l : List Char}
    (h : Text.ofChars l = fileHead source name) :
    ∃ n rest, name = .ofChars n ∧ l = nameStart ++ (n ++ '"' :: rest) := by
  have hsplit : fileHead source name = .ofChars nameStart ++ (name ++ (.ofChars ['"'] ++
      (Text.ofString " source-language=\"" ++ source ++ "\" datatype=\"plaintext\"><body>"))) := by
    simp [fileHead, nameStart, indent, Text.ofString]
  obtain ⟨behind, rfl, hbehind⟩ := Text.exists_of_ofChars_eq_append (h.trans hsplit)
  obtain ⟨n, quoted, rfl, hn, hquoted⟩ := List.map_eq_append_iff.mp hbehind.symm
  obtain ⟨rest, rfl, -⟩ := Text.exists_of_ofChars_eq_append hquoted
  exact ⟨n, rest, hn.symm, rfl⟩

section Files

variable {source language : List Char}

/-- Bundles that can be written are written with characters, and read as files of their names. -/
theorem readsFile_of_writable (hsource : Attribute.IsValue source language)
    {bundles : Fields Bundle} {lss : List (List Text)}
    (h : List.Forall₂ (LinesOf (.ofChars source)) bundles lss)
    (hbundles : ∀ b ∈ bundles, WritableBundle b) :
    ∃ css : List (List (List Char)), lss = css.map (·.map .ofChars) ∧
      List.Forall₂ ReadsFile (bundles.map (·.1)) css := by
  induction h with
  | nil => exact ⟨[], rfl, .nil⟩
  | @cons b ls bundles lss hb _ ih =>
    obtain ⟨file, hfor, hls⟩ := hb
    obtain ⟨cs, rfl, hcs⟩ := hfor.reads (hbundles b (by simp)) hsource hls
    obtain ⟨css, rfl, hcss⟩ := ih fun c hc => hbundles c (List.mem_cons_of_mem _ hc)
    exact ⟨cs :: css, rfl, .cons hcs hcss⟩

theorem writableEntry_of_legal {source : Text} {bundles : Fields Bundle} {lss : List (List Text)}
    (h : List.Forall₂ (LinesOf source) bundles lss) (hlegal : ∀ ls ∈ lss, ∀ l ∈ ls, LegalText l) :
    ∀ b ∈ bundles, ∀ e ∈ b.2, WritableEntry e := by
  intro b hb
  obtain ⟨ls, hls, file, hfor, hlines⟩ := exists_of_forall₂ h b hb
  exact hfor.writable hlines (hlegal ls hls)

/-- In a document that is read with the names of its bundles none of the names needs an escape. The
files before one are read as files, and so the next file has what its name is read as. -/
theorem writable_of_originals (hsource : Attribute.IsValue source language) {names : List Text}
    {before : List (List (List Char))} (hbefore : List.Forall₂ ReadsFile names before)
    {bundles : Fields Bundle} {after : List (List (List Char))}
    (hafter : List.Forall₂ (fun b cs => LinesOf (.ofChars source) b (cs.map .ofChars)) bundles after)
    (hentries : ∀ b ∈ bundles, ∀ e ∈ b.2, WritableEntry e) {root : Element}
    (hread : readDocument (documentOf (before ++ after)) = .ok root)
    (horiginals : (root.children "file").map
      (fun x => (x.attribute? "original").map Text.ofChars) =
        (names ++ bundles.map (·.1)).map some) :
    ∀ b ∈ bundles, WritableBundle b := by
  induction hafter generalizing names before with
  | nil => simp
  | @cons b cs bundles after hb _ ih =>
    obtain ⟨file, hfor, hlines⟩ := hb
    obtain ⟨body, -, hcs⟩ := fileLines?_eq_some hlines
    obtain ⟨l, ls, rfl⟩ : ∃ l ls, cs = l :: ls := by
      cases cs with
      | nil => cases hcs
      | cons l ls => exact ⟨l, ls, rfl⟩
    obtain ⟨n, rest, hn, rfl⟩ := head_named (List.cons.inj hcs).1
    obtain ⟨xs, x, more, value, hchildren, hlen, hvalue, hverbatim⟩ :=
      original_of_readDocument hbefore hread
    have hname : value = n := by
      rw [hchildren, List.map_append, List.map_append, List.map_cons, List.map_cons, List.map_cons,
        hvalue] at horiginals
      obtain ⟨-, hrest⟩ := List.append_inj horiginals (by simpa using hlen)
      have hsome := Option.some.inj (List.cons.inj hrest).1
      rw [hfor.1, hn] at hsome
      exact Text.ofChars_injective hsome
    have hwritable : WritableBundle b :=
      ⟨⟨n, hfor.1.trans hn, hverbatim hname⟩, hentries b (by simp)⟩
    obtain ⟨cs, hcs, hreads⟩ := hfor.reads hwritable hsource hlines
    obtain rfl := Text.ofChars_injective.list_map hcs
    refine List.forall_mem_cons.mpr ⟨hwritable, ?_⟩
    refine ih (List.rel_append hbefore (.cons hreads .nil)) (fun c hc => hentries c (by simp [hc])) ?_ ?_
    · rwa [List.append_assoc]
    · rwa [List.append_assoc]

end Files

/-- A source language that is the value of an attribute, and bundles of messages under any names,
make up a document. If it is rendered, it is well-formed and has the names of the bundles with
entries for its files, in order, exactly if these names need no escape, and all messages and
comments, and the keys that no digest stands for, are legal. -/
theorem isDocumentOf_rendered_iff {source language : List Char}
    (hsource : Attribute.IsValue source language) {bundles : Fields Bundle}
    (hbundles : ∀ b ∈ bundles, ∀ e ∈ b.2, (Bundle.message? e.2).isSome) :
    ∃ d, Document.ofBundles (.ofChars source) bundles = .ok d ∧
      ∀ doc, d.render? = some doc →
        (IsDocumentOf doc (Text.sortBy16 id (added bundles).keys) ↔
          ∀ b ∈ added bundles, WritableBundle b) := by
  obtain ⟨files, hof, hfiles⟩ := ofBundles_files hbundles (.ofChars source)
  refine ⟨_, hof, fun doc hdoc => ?_⟩
  obtain ⟨order, lss, hperm, hnames, hlss, rfl⟩ := render?_linesOf hfiles hdoc
  simp only [← hnames, ← hperm.mem_iff]
  constructor
  · rintro ⟨cs, root, hcs, hread, horiginals⟩
    have hlegal := legalText_of_readDocument hread hcs.symm
    obtain ⟨css, rfl, -⟩ : ∃ css : List (List (List Char)), lss = css.map (·.map .ofChars) ∧
        ∀ cs ∈ css, ∀ l ∈ cs, ∀ c ∈ l, isLegal c = true :=
      exists_map_eq fun ls hls => exists_map_eq fun l hl => (hlegal ls hls l hl).exists_chars
    rw [join_documentOf] at hcs
    obtain rfl := Text.ofChars_injective hcs
    exact writable_of_originals hsource .nil (List.forall₂_map_right_iff.mp hlss)
      (writableEntry_of_legal hlss hlegal) hread horiginals
  · intro hwritable
    obtain ⟨css, rfl, hreads⟩ := readsFile_of_writable hsource hlss hwritable
    rw [join_documentOf]
    exact isDocumentOf_documentOf hreads

/-- A name with an ampersand is written as it is, and the document cannot be read with it. -/
theorem isDocumentOf_rendered_ampersand :
    let bundles : Fields Bundle := [("a&b", [("greeting", .string "Hello")])]
    ∃ d doc, Document.ofBundles "en" bundles = .ok d ∧ d.render? = some doc ∧
      ¬ IsDocumentOf doc ["a&b"] := by
  intro bundles
  obtain ⟨d, hd, hiff⟩ := isDocumentOf_rendered_iff (Attribute.isValue_verbatim isVerbatim_en)
    (show ∀ b ∈ bundles, ∀ e ∈ b.2, (Bundle.message? e.2).isSome by
      intro b hb e he
      obtain rfl := by simpa [bundles] using hb
      obtain rfl := by simpa using he
      rfl)
  obtain rfl : Document.mk "en" [("a&b", [⟨"greeting", "Hello", none⟩])] = d :=
    Except.ok.inj (hd.symm.trans rfl).symm
  have hrender : (Document.render? ⟨"en", [("a&b", [⟨"greeting", "Hello", none⟩])]⟩).isSome := by
    have hsorted : ∀ u : TransUnit, TransUnit.sorted [u] = [u] := fun u =>
      List.mergeSort_singleton _
    simp only [Document.render?, Text.sortBy16, List.mergeSort_singleton, List.mapM_cons,
      Document.fileLines?, hsorted]
    rfl
  obtain ⟨doc, hdoc⟩ := Option.isSome_iff_exists.mp hrender
  refine ⟨_, doc, hd, hdoc, fun h => ?_⟩
  have hnames : Text.sortBy16 id (added bundles).keys = ["a&b"] := List.mergeSort_singleton _
  obtain ⟨n, hn, hverbatim⟩ := ((hiff doc hdoc).mp (hnames ▸ h) _ (List.mem_singleton_self _)).name
  obtain rfl : "a&b".toList = n := Text.ofChars_injective hn
  exact (hverbatim '&' (by decide)).2.2.2.1 rfl

end Localization.Xliff
