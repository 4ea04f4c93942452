import Localization.Proofs.Xliff.RoundTrip

/-! A rendered document, line by line: which lines are legal, and which lines are read as the units
and the files that they were written for. -/

namespace Localization.Xliff

open Xml Xml.Content LineReading

/-! Legal text. -/

/-- Text of characters that XML can hold. -/
def LegalText (t : Text) : Prop := ∀ p ∈ t, ∃ c, p = .char c ∧ isLegal c = true

theorem legalText_ofChars {cs : List Char} :
    LegalText (.ofChars cs) ↔ ∀ c ∈ cs, isLegal c = true := by
  simp [LegalText, Text.ofChars]

theorem LegalText.exists_chars {t : Text} (h : LegalText t) :
    ∃ cs, t = .ofChars cs ∧ ∀ c ∈ cs, isLegal c = true := by
  induction t with
  | nil => exact ⟨[], rfl, by simp⟩
  | cons p t ih =>
    obtain ⟨⟨c, rfl, hc⟩, ht⟩ := List.forall_mem_cons.mp h
    obtain ⟨cs, rfl, hcs⟩ := ih ht
    exact ⟨c :: cs, rfl, List.forall_mem_cons.mpr ⟨hc, hcs⟩⟩

theorem legalText_append {s t : Text} : LegalText (s ++ t) ↔ LegalText s ∧ LegalText t :=
  List.forall_mem_append

/-- Entities leave out no code point that is not legal. -/
theorem LegalText.of_encode {t : Text} (h : LegalText (Entity.encode t)) : LegalText t := by
  intro p hp
  have hone : ∀ q ∈ Entity.encodeOne p, ∃ c, q = .char c ∧ isLegal c = true :=
    fun q hq => h q (List.mem_flatMap.mpr ⟨p, hp, hq⟩)
  cases p with
  | surrogate n => exact hone _ (by simp [Entity.encodeOne])
  | char c =>
    rcases encodedChar_cases c with hspecial | ⟨hc, -⟩
    · refine ⟨c, rfl, ?_⟩
      rcases hspecial with rfl | rfl | rfl | rfl | rfl | rfl | rfl <;> decide
    · exact hone _ (by rw [encodeOne_char, hc]; simp)

theorem LegalText.of_join {sep : Text} {ts : List Text} (h : LegalText (Text.join sep ts)) :
    ∀ t ∈ ts, LegalText t := by
  induction ts with
  | nil => simp
  | cons t ts ih =>
    cases ts with
    | nil => exact List.forall_mem_singleton.mpr h
    | cons u ts =>
      rw [Text.join, legalText_append, legalText_append] at h
      · exact List.forall_mem_cons.mpr ⟨h.1.1, ih h.2⟩
      · simp

/-! Entries. -/

/-- An entry that can be written so that it can be read: its message is legal, and so is its key
unless a digest stands for it. -/
def WritableEntry (e : Text × Json) : Prop :=
  ∀ m, Bundle.message? e.2 = some m → LegalText m.text ∧ (∀ c ∈ m.comments, LegalText c) ∧
    (m.text <+: e.1 ∨ LegalText e.1)

theorem nonempty_of_lines? {u : TransUnit} {source : Text} {ls : List Text}
    (h : u.lines? source = some ls) : u.id.isEmpty = false ∧ u.message.isEmpty = false := by
  rw [TransUnit.lines?] at h
  split at h
  · cases h
  · rename_i hne
    simpa using hne

/-- The lines of a unit are legal only if its entry can be written. -/
theorem UnitFor.writable {e : Text × Json} {u : TransUnit} (h : UnitFor e u) {source : Text}
    {ls : List Text} (hls : u.lines? source = some ls) (hlegal : ∀ l ∈ ls, LegalText l) :
    WritableEntry e := by
  obtain ⟨m, hm, hstands⟩ := h
  intro m' hm'
  obtain rfl := Option.some.inj (hm.symm.trans hm')
  obtain ⟨hid, hmessage⟩ := nonempty_of_lines? hls
  obtain rfl := Option.some.inj ((lines?_of_nonempty hid hmessage source).symm.trans hls)
  simp only [List.cons_append, List.nil_append, List.forall_mem_cons, List.forall_mem_append,
    legalText_append] at hlegal
  obtain ⟨⟨⟨-, hwritten⟩, -⟩, ⟨⟨-, htext⟩, -⟩, hnote, -⟩ := hlegal
  refine ⟨.of_encode (hstands.message ▸ htext), fun c hc => ?_, ?_⟩
  · have hcomment : LegalText (u.comment.getD []) := by
      unfold noteLines at hnote
      split at hnote
      · rename_i hempty
        simp [List.isEmpty_iff.mp hempty, LegalText]
      · simp only [List.forall_mem_singleton, legalText_append] at hnote
        exact hnote.1.2
    rw [hstands.comment] at hcomment
    exact .of_encode (hcomment.of_join _ (List.mem_map_of_mem hc))
  · by_cases hprefix : m.text <+: e.1
    · exact .inl hprefix
    · rw [(encode_writtenId hstands).2 hprefix] at hwritten
      exact .inr (.of_encode (.of_encode hwritten))

theorem id_isValue {e : Text × Json} {m : Message} {u : TransUnit} (hu : StandsFor e.1 m u)
    (he : m.text <+: e.1 ∨ LegalText e.1) :
    ∃ raw value, Entity.encode u.writtenId = .ofChars raw ∧ Attribute.IsValue raw value := by
  obtain ⟨hdigest, hliteral⟩ := encode_writtenId hu
  by_cases hprefix : m.text <+: e.1
  · obtain ⟨id, hwritten, hchars, -⟩ := hdigest hprefix
    exact ⟨id, id, hwritten, Attribute.isValue_verbatim (isVerbatim_of_isIdChar hchars)⟩
  · obtain ⟨key, hkey, hlegal⟩ := (he.resolve_left hprefix).exists_chars
    refine ⟨encoded (encoded key), _, ?_, isValue_encoded (isLegal_encoded hlegal)⟩
    rw [hliteral hprefix, hkey, encode_ofChars, encode_ofChars]

/-- Lines of a unit are read as a unit. -/
def ReadsUnit (ls : List (List Char)) : Prop :=
  ∀ {bs : Bindings}, Bindings.Alike Namespace.standard bs →
    ∃ x, Spaced bs (lines ['\r', '\n'] ls) x

theorem readsUnit_unitLines {source language raw id text : List Char}
    {comments : List (List Char)} (hsource : Attribute.IsValue source language)
    (hraw : Attribute.IsValue raw id) (htext : ∀ c ∈ text, isLegal c = true)
    (hcomments : ∀ cs ∈ comments, ∀ c ∈ cs, isLegal c = true) :
    ReadsUnit (unitLines ['\r', '\n'] source raw text comments) := by
  intro bs hbs
  have hnewline : IsLineEnd ['\r', '\n'] := .inl rfl
  obtain ⟨es, hes, -⟩ := spaced_parts hbs hnewline hsource htext hcomments
  obtain ⟨blanks, hgap⟩ := charData_gap hnewline 4
  obtain ⟨x, hx, -⟩ := reads_spaced (n := "trans-unit".toList) (by decide)
    [⟨⟨none, "id".toList⟩, raw, id⟩] (valid_id hraw) (by simp) rfl hes hgap
  have hlines : lines ['\r', '\n'] (unitLines ['\r', '\n'] source raw text comments) =
      ['\r', '\n'] ++ (indent 4 ++ (openingTag "trans-unit".toList [⟨⟨none, "id".toList⟩, raw, id⟩] ++
        (((unitParts ['\r', '\n'] source text comments).map
          fun p => ['\r', '\n'] ++ (indent 6 ++ p)).flatten ++ (['\r', '\n'] ++ indent 4)) ++
        closingTag "trans-unit".toList)) := by
    simp [unitLines, lines, openingTag, idAttribute, verbatim, Attribute.written, List.flatMap_def,
      Function.comp_def]
  exact ⟨x, hlines ▸ spaced_line hnewline 4 rfl hx⟩

theorem UnitFor.reads {e : Text × Json} {u : TransUnit} (h : UnitFor e u) (he : WritableEntry e)
    {source language : List Char} (hsource : Attribute.IsValue source language) {ls : List Text}
    (hls : u.lines? (.ofChars source) = some ls) :
    ∃ css : List (List Char), ls = css.map .ofChars ∧ ReadsUnit css := by
  obtain ⟨⟨text, comments⟩, hm, hstands⟩ := h
  obtain ⟨htext, hcomments, hkey⟩ := he _ hm
  obtain ⟨raw, value, hraw, hvalue⟩ := id_isValue hstands hkey
  obtain ⟨text, rfl, hlegal⟩ := htext.exists_chars
  obtain ⟨comments, rfl, hlegals⟩ := exists_map_eq fun c hc => (hcomments c hc).exists_chars
  obtain ⟨hid, hmessage⟩ := nonempty_of_lines? hls
  obtain rfl := Option.some.inj ((lines?_written hstands hid hmessage hraw source).symm.trans hls)
  refine ⟨_, rfl, readsUnit_unitLines hsource hvalue hlegal ?_⟩
  unfold noted
  split
  · simp
  · exact hlegals

/-! Files. -/

/-- A bundle that can be written so that it can be read: its name needs no escape. -/
structure WritableBundle (b : Text × Bundle) : Prop where
  name : ∃ n, b.1 = Text.ofChars n ∧ Attribute.IsVerbatim n
  entries : ∀ e ∈ b.2, WritableEntry e

def fileHead (source name : Text) : Text :=
  Text.ofString "  <file original=\"" ++ name ++ "\" source-language=\"" ++ source ++
    "\" datatype=\"plaintext\"><body>"

theorem fileLines?_eq_some {source name : Text} {units : List TransUnit} {ls : List Text}
    (h : Document.fileLines? source name units = some ls) : ∃ body,
      List.Forall₂ (fun u ls => u.lines? source = some ls) (TransUnit.sorted units) body ∧
      ls = fileHead source name :: body.flatten ++ [Text.ofString "  </body></file>"] := by
  obtain ⟨body, hbody, h⟩ := Option.bind_eq_some_iff.mp h
  exact ⟨body, mapM_eq_some_iff.mp hbody, (Option.some.inj h).symm⟩

theorem mem_between {α : Type} {first last x : α} {xs : List α} {xss : List (List α)}
    (hxs : xs ∈ xss) (hx : x ∈ xs) : x ∈ first :: xss.flatten ++ [last] :=
  List.mem_append_left _ (List.mem_cons_of_mem _ (List.mem_flatten_of_mem hxs hx))

/-- The lines of a file are legal only if the entries of its bundle can be written. -/
theorem FileFor.writable {b : Text × Bundle} {file : Text × List TransUnit} (h : FileFor b file)
    {source : Text} {ls : List Text} (hls : Document.fileLines? source file.1 file.2 = some ls)
    (hlegal : ∀ l ∈ ls, LegalText l) : ∀ e ∈ b.2, WritableEntry e := by
  obtain ⟨body, hbody, rfl⟩ := fileLines?_eq_some hls
  intro e he
  obtain ⟨u, hu, hfor⟩ := exists_of_forall₂ h.2 e he
  obtain ⟨ls, hls, hlines⟩ := exists_of_forall₂ hbody u ((sorted_perm _).mem_iff.mpr hu)
  exact hfor.writable hlines fun l hl => hlegal l (mem_between hls hl)

/-- Lines of a file are read as a file of a name. -/
def ReadsFile (name : Text) (ls : List (List Char)) : Prop :=
  ∀ {bs : Bindings}, Bindings.Alike Namespace.standard bs →
    ∃ x, Spaced bs (lines ['\r', '\n'] ls) x ∧ x.name = "file".toList ∧
      (x.attribute? "original").map Text.ofChars = some name

theorem fileHead_eq (source language name : List Char) :
    fileHead (.ofChars source) (.ofChars name) =
      .ofChars (fileLine (readAttributes source language name)) := by
  simp [fileHead, fileLine, openingTag, indent, readAttributes, verbatim, Attribute.written,
    Name.written, Text.ofString]

theorem readsFile_lines {source language name : List Char}
    (hsource : Attribute.IsValue source language) (hname : Attribute.IsVerbatim name)
    {lss : List (List (List Char))} (hlss : ∀ ls ∈ lss, ReadsUnit ls) :
    ReadsFile (.ofChars name)
      (fileLine (readAttributes source language name) :: lss.flatten ++ [fileEnd]) := by
  intro bs hbs
  obtain ⟨units, hunits⟩ := exists_forall₂ fun ls hls => hlss ls hls hbs
  have hplain : ∀ a ∈ readAttributes source language name, a.name.qualifier = none := by
    simp [readAttributes, verbatim]
  have hdistinct : ([⟨none, "original".toList⟩, ⟨none, "source-language".toList⟩,
      ⟨none, "datatype".toList⟩] : List Name).Nodup := by decide
  obtain ⟨x, hx, hxname, hattributes, -⟩ := spaced_file (.inl rfl)
    (valid_readAttributes hsource hname) hdistinct hplain
    (List.forall₂_map_left_iff.mpr hunits)
  refine ⟨x, ?_, hxname, ?_⟩
  · rw [lines_file]
    exact hx
  · rw [attribute?_eq hattributes hplain]
    rfl

theorem FileFor.reads {b : Text × Bundle} {file : Text × List TransUnit} (h : FileFor b file)
    (hb : WritableBundle b) {source language : List Char}
    (hsource : Attribute.IsValue source language) {ls : List Text}
    (hls : Document.fileLines? (.ofChars source) file.1 file.2 = some ls) :
    ∃ css : List (List Char), ls = css.map .ofChars ∧ ReadsFile b.1 css := by
  obtain ⟨body, hbody, rfl⟩ := fileLines?_eq_some hls
  obtain ⟨name, hn, hname⟩ := hb.name
  obtain ⟨lss, rfl, hlss⟩ : ∃ lss : List (List (List Char)),
      body = lss.map (·.map .ofChars) ∧ ∀ ls ∈ lss, ReadsUnit ls := by
    refine exists_map_eq fun ls hls => ?_
    obtain ⟨u, hu, hlines⟩ := exists_of_forall₂ hbody.flip ls hls
    obtain ⟨e, he, hfor⟩ := exists_of_forall₂ h.2.flip u ((sorted_perm _).mem_iff.mp hu)
    exact UnitFor.reads hfor (hb.entries e he) hsource hlines
  have hend : Text.ofString "  </body></file>" = .ofChars fileEnd := rfl
  refine ⟨_, ?_, hn ▸ readsFile_lines hsource hname hlss⟩
  rw [← h.1, hn, fileHead_eq source language, hend]
  simp [List.map_flatten]

/-! Documents. -/

theorem render?_eq_some {d : Document} {doc : Text} (h : d.render? = some doc) :
    ∃ lss, List.Forall₂ (fun file ls => Document.fileLines? d.sourceLanguage file.1 file.2 = some ls)
        (Text.sortBy16 (·.1) d.files) lss ∧
      doc = Text.join crlf (.ofChars declaration :: .ofChars rootTag :: lss.flatten ++
        [.ofChars rootEnd]) := by
  obtain ⟨lss, hlss, h⟩ := Option.bind_eq_some_iff.mp h
  exact ⟨lss, mapM_eq_some_iff.mp hlss, (Option.some.inj h).symm⟩

theorem readsFile_all {bs : Bindings} (hbs : Bindings.Alike Namespace.standard bs)
    {names : List Text} {lss : List (List (List Char))} (h : List.Forall₂ ReadsFile names lss) :
    ∃ xs, List.Forall₂ (Spaced bs) (lss.map (lines ['\r', '\n'])) xs ∧
      (∀ x ∈ xs, x.name = "file".toList) ∧
      xs.map (fun x => (x.attribute? "original").map Text.ofChars) = names.map some := by
  induction h with
  | nil => exact ⟨[], .nil, by simp, rfl⟩
  | @cons name ls names lss hls _ ih =>
    obtain ⟨x, hx, hname, horiginal⟩ := hls hbs
    obtain ⟨xs, hxs, hnames, horiginals⟩ := ih
    exact ⟨x :: xs, .cons hx hxs, List.forall_mem_cons.mpr ⟨hname, hnames⟩, by
      rw [List.map_cons, List.map_cons, horiginal, horiginals]⟩

/-- A text is a document of files with these names, in this order. -/
def IsDocumentOf (doc : Text) (names : List Text) : Prop :=
  ∃ cs root, doc = .ofChars cs ∧ readDocument cs = .ok root ∧
    (root.children "file").map (fun x => (x.attribute? "original").map Text.ofChars) =
      names.map some

theorem isDocumentOf_documentOf {names : List Text} {lss : List (List (List Char))}
    (h : List.Forall₂ ReadsFile names lss) :
    IsDocumentOf (.ofChars (documentOf lss)) names := by
  obtain ⟨bs, hbs, hread⟩ := readDocument_spaced .exact lss
  obtain ⟨xs, hxs, hnames, horiginals⟩ := readsFile_all hbs h
  obtain ⟨root, hroot, -, hchildren⟩ := hread (by simpa using hxs) hnames
  exact ⟨documentOf lss, root, rfl, hroot, hchildren ▸ horiginals⟩

end Localization.Xliff
