import Localization.Proofs.Xliff.Files
import Localization.Proofs.Xliff.UnitReading
import Mathlib.Data.List.Perm.Basic

/-! The file of a bundle, read with the language and the targets that were added. -/

namespace Localization.Xliff

open Xml Xml.Content LineReading

variable {t : Translation} {f : List Char → List Char} {newline : List Char} {bs : Bindings}

/-! Units of a file. -/

/-- A unit stands for an entry that can be written and read. -/
def UnitOf (e : Text × Json) (u : TransUnit) : Prop :=
  ∃ (key text : List Char) (comments : List (List Char)), e.1 = .ofChars key ∧
    Bundle.message? e.2 = some ⟨.ofChars text, comments.map .ofChars⟩ ∧
    StandsFor (.ofChars key) ⟨.ofChars text, comments.map .ofChars⟩ u ∧ Legible key text comments

theorem UnitFor.unitOf {e : Text × Json} {u : TransUnit} (hu : UnitFor e u)
    (he : LegibleEntry e) : UnitOf e u := by
  obtain ⟨m, hm, hstands⟩ := hu
  obtain ⟨key, text, comments, hkey, hmessage, hlegible⟩ := he
  obtain rfl := Option.some.inj (hm.symm.trans hmessage)
  exact ⟨key, text, comments, hkey, hmessage, hkey ▸ hstands, hlegible⟩

/-- Lines of a file are read as a unit of the message that the key of an entry is translated to. -/
def IsUnitLines (t : Translation) (name : Text) (e : Text × Json) (ls : List (List Char)) : Prop :=
  ∀ {f : List Char → List Char} {newline : List Char} {bs : Bindings}, LineReading f newline →
    Bindings.Alike Namespace.standard bs → (t.target? f name e.1).isSome →
    ∃ x, Spaced bs (lines newline (ls.map f)) x ∧ x.name = "trans-unit".toList ∧
      unitMessage x = .ok (some (t.returned f name e))

theorem unitLines_of {source : List Char} (hsource : Attribute.IsVerbatim source)
    (t : Translation) (name : Text) {e : Text × Json} {u : TransUnit} (h : UnitOf e u) :
    ∃ ls : List (List Char),
      (u.lines? (.ofChars source)).map (Addition.into (t.target name u.id)) =
        some (ls.map .ofChars) ∧
      IsUnitLines t name e ls := by
  obtain ⟨key, v⟩ := e
  obtain ⟨key, text, comments, rfl, hv, hunit, hlegible⟩ := h
  obtain ⟨raw, value, hid, hlines⟩ := lines?_eq hunit hlegible source
  refine ⟨translatedUnit source raw text (noted comments) (t.target name u.id), ?_, ?_⟩
  · rw [hlines, Option.map_some, into_unitLines]
  · intro f newline bs hf hbs htarget
    obtain ⟨target, htarget⟩ := Option.isSome_iff_exists.mp htarget
    obtain ⟨a, ha, hof⟩ := Option.bind_eq_some_iff.mp htarget
    obtain ⟨x, hspaced, hname, hmessage⟩ := spaced_unit hf hbs hsource hid hv hlegible hof
    refine ⟨x, ?_, hname, ?_⟩
    · rw [hunit.id, ha]
      exact hspaced
    · rw [hmessage, Translation.returned, Translation.message, htarget, Option.getD_some]

/-! The tags of a file. -/

def fileAttributes (source name : List Char) : List Attribute :=
  [verbatim ⟨none, "original".toList⟩ name, verbatim ⟨none, "source-language".toList⟩ source,
    verbatim ⟨none, "datatype".toList⟩ "plaintext".toList]

/-- The attributes of a file as they are read: the source language may hold references. -/
def readAttributes (source language name : List Char) : List Attribute :=
  [verbatim ⟨none, "original".toList⟩ name, ⟨⟨none, "source-language".toList⟩, source, language⟩,
    verbatim ⟨none, "datatype".toList⟩ "plaintext".toList]

def targetLanguage (raw value : List Char) : Attribute :=
  ⟨⟨none, "target-language".toList⟩, raw, value⟩

def fileLine (as : List Attribute) : List Char :=
  indent 2 ++ (openingTag "file".toList as ++ openingTag "body".toList [])

def fileEnd : List Char := indent 2 ++ (closingTag "body".toList ++ closingTag "file".toList)

/-- The attributes of a file with the language that was added. -/
def addedAttributes (source name : List Char) (language : Option Addition) : List Attribute :=
  match language with
  | none => fileAttributes source name
  | some a => placed a.after (targetLanguage a.chars []) (fileAttributes source name)

theorem fileLine_eq (source name : List Char) (language : Option Addition) :
    Text.ofString "  <file" ++
      (Addition.among language (attributesOf (.ofChars source) (.ofChars name))).flatten ++
        "><body>" = Text.ofChars (fileLine (addedAttributes source name language)) := by
  have hattributes : attributesOf (.ofChars source) (.ofChars name) =
      (fileAttributes source name).map fun a => .ofChars a.written := by
    simp [attributesOf, fileAttributes, verbatim, Attribute.written, Name.written, Text.ofString]
  have hamong : Addition.among language (attributesOf (.ofChars source) (.ofChars name)) =
      (addedAttributes source name language).map fun a => .ofChars a.written := by
    rw [hattributes]
    cases language with
    | none => rfl
    | some a =>
      rw [Addition.among, addedAttributes, map_placed]
      congr 1
      simp [targetLanguage, Attribute.written, Name.written, Text.ofString]
  have hflat : ∀ as : List Attribute, (as.map fun a => Text.ofChars a.written).flatten =
      Text.ofChars (as.flatMap Attribute.written) := by
    intro as
    induction as with
    | nil => rfl
    | cons a as ih => simp [List.flatMap_cons, ← ih]
  rw [hamong, hflat]
  simp [fileLine, openingTag, indent, Text.ofString]

/-- A line with an attribute that is read by itself. -/
theorem read_fileLine (hf : LineReading f newline) {n : Nat} {raw : List Char}
    {as : List Attribute} (has : ∀ a ∈ as, '\r' ∉ a.written) (value : List Char) :
    f (fileLine (placed n (targetLanguage raw []) as)) =
      fileLine (placed n (targetLanguage (f raw) value) as) := by
  have hplain : ∀ bs : List Attribute, (∀ b ∈ bs, b ∈ as) →
      '\r' ∉ bs.flatMap Attribute.written := by
    intro bs hbs hcr
    obtain ⟨b, hb, hcr⟩ := List.mem_flatMap.mp hcr
    exact has b (hbs b hb) hcr
  have hbefore := hplain (as.take n) fun b => List.mem_of_mem_take
  have hbehind := hplain (as.drop n) fun b => List.mem_of_mem_drop
  have hsplit : ∀ raw value, fileLine (placed n (targetLanguage raw value) as) =
      (indent 2 ++ ("<file".toList ++ ((as.take n).flatMap Attribute.written ++
        " target-language=\"".toList))) ++ (raw ++ ('"' :: ((as.drop n).flatMap Attribute.written ++
          "><body>".toList))) := by
    intro raw value
    simp [fileLine, openingTag, placed, targetLanguage, Attribute.written, Name.written]
  have hhead : '\r' ∉ indent 2 ++ ("<file".toList ++ ((as.take n).flatMap Attribute.written ++
      " target-language=\"".toList)) := by
    simp [indent, hbefore]
  have htail : '\r' ∉ '"' :: ((as.drop n).flatMap Attribute.written ++ "><body>".toList) := by
    simp [hbehind]
  have hparted : Parted raw ('"' :: ((as.drop n).flatMap Attribute.written ++ "><body>".toList)) :=
    fun _ => by simp
  rw [hsplit, hsplit, hf.verbatim hhead, hf.append hparted, hf.of_not_mem htail]

/-- The lines of a file with lines between the first and the last one. -/
theorem lines_file (newline first last : List Char) (lss : List (List (List Char))) :
    lines newline (first :: lss.flatten ++ [last]) =
      newline ++ first ++ (lss.map (lines newline)).flatten ++ newline ++ last := by
  have hflat : lines newline lss.flatten = (lss.map (lines newline)).flatten := by
    induction lss with
    | nil => rfl
    | cons ls lss ih =>
      rw [List.flatten_cons, lines, List.flatMap_append, ← lines, ← lines, ih]
      rfl
  simp [lines, ← hflat]

/-- The lines of a file with the language that was added, as they are read. -/
theorem read_fileLines (hf : LineReading f newline) {source name : List Char}
    (hsource : Attribute.IsVerbatim source) (hname : Attribute.IsVerbatim name) (a : Addition)
    (value : List Char) (lss : List (List (List Char))) :
    lines newline ((fileLine (placed a.after (targetLanguage a.chars [])
      (fileAttributes source name)) :: lss.flatten ++ [fileEnd]).map f) =
      newline ++ fileLine (placed a.after (targetLanguage (f a.chars) value)
        (fileAttributes source name)) ++ (lss.map fun ls => lines newline (ls.map f)).flatten ++
        newline ++ fileEnd := by
  have hcr : ∀ b ∈ fileAttributes source name, '\r' ∉ b.written := by
    have hs : '\r' ∉ source := fun hmem => (hsource _ hmem).2.2.2.2.2.2 rfl
    have hn : '\r' ∉ name := fun hmem => (hname _ hmem).2.2.2.2.2.2 rfl
    simp [fileAttributes, verbatim, Attribute.written, Name.written, hs, hn]
  have hend : f fileEnd = fileEnd := hf.of_not_mem (by decide)
  have hbetween : lss.flatten.map f = (lss.map fun ls => ls.map f).flatten := by
    rw [List.map_flatten]
  rw [List.map_append, List.map_cons, read_fileLine hf hcr value, List.map_singleton, hend,
    hbetween, lines_file, List.map_map]
  rfl

/-! The element of a file. -/

theorem scanned_of_valueOf? {raw value : List Char} (h : valueOf? raw = some value) :
    Attribute.IsValue raw value ∧ value ≠ [] := by
  rw [valueOf?] at h
  split at h
  · rename_i taken c cs hscan hvalue
    split at h
    · rename_i htaken
      obtain rfl : c :: cs = value := by simpa using h
      exact ⟨⟨htaken ▸ hscan, hvalue⟩, by simp⟩
    · cases h
  · cases h

/-- An attribute of an element that is written with plain attributes. -/
theorem attribute?_eq {e : Element} {as : List Attribute} (h : e.attributes = Attribute.plain as)
    (hplain : ∀ a ∈ as, a.name.qualifier = none) (name : String) : e.attribute? name =
      (as.filter fun a => a.name.base == name.toList).head?.map Attribute.value := by
  have hmap : Attribute.plain as = as.map fun a => (a.name.base, a.value) := by
    rw [Attribute.plain]
    refine List.filterMap_eq_map_iff_forall_eq_some.mpr fun a ha => ?_
    simp [hplain a ha]
  rw [Element.attribute?, h, hmap, List.find?_map, List.head?_filter, Option.map_map]
  rfl

/-- A file with units in it, as it is read. -/
theorem spaced_file (hnewline : IsLineEnd newline)
    {as : List Attribute} (has : ∀ a ∈ as, a.Valid) (hnames : (as.map Attribute.name).Nodup)
    (hplain : ∀ a ∈ as, a.name.qualifier = none) {raws : List (List Char)} {units : List Element}
    (h : List.Forall₂ (Spaced bs) raws units) :
    ∃ x, Spaced bs (newline ++ fileLine as ++ raws.flatten ++ newline ++ fileEnd) x ∧
      x.name = "file".toList ∧ x.attributes = Attribute.plain as ∧
      unitsOf x = units.filter fun u => u.name = "trans-unit".toList := by
  obtain ⟨blanks, hgap⟩ := charData_gap hnewline 2
  obtain ⟨body, hbody, hbodyName, -, hunits⟩ := reads_spaced (n := "body".toList)
    (by decide) [] (by simp) (by simp) rfl h hgap
  have hqualified : Gathered.checkQualified bs [] (Attribute.qualified as) = .ok () := by
    have hnone : Attribute.qualified as = [] := by
      rw [Attribute.qualified, List.filterMap_eq_nil_iff]
      exact fun a ha => by rw [hplain a ha]; rfl
    rw [hnone]
    rfl
  have hspaced : Spaced bs (openingTag "body".toList [] ++
      (raws.flatten ++ (newline ++ indent 2)) ++ closingTag "body".toList) body :=
    ⟨[], [], _, rfl, .nil, rfl, hbody⟩
  obtain ⟨x, hx, hname, hattributes, helements⟩ := reads_spaced (n := "file".toList) (by decide)
    as has hnames hqualified (.cons hspaced .nil) .nil
  refine ⟨x, ?_, hname, hattributes, ?_⟩
  · have hline := spaced_line hnewline 2 rfl hx
    simpa [fileLine, fileEnd] using hline
  · have hchildren : x.children "body" = [body] := by
      rw [children_eq, helements]
      simp [hbodyName]
    rw [unitsOf, hchildren, List.flatMap_singleton, children_eq, hunits]

/-- The messages of units, in the order of their keys. -/
theorem messagesOf_eq {es : Fields Text} {units : List Element}
    (h : List.Forall₂ (fun e x => unitMessage x = .ok (some e)) es units) :
    messagesOf units = .ok (Text.sortBy16 (·.1) (Fields.ofList es)) := by
  have hfound : units.mapM unitMessage = .ok (es.map some) := by
    induction h with
    | nil => rfl
    | cons hx _ ih =>
      rw [List.mapM_cons, hx, ih]
      rfl
  have hall : (es.map some).filterMap id = es := by
    rw [List.filterMap_map]
    exact List.filterMap_some
  rw [messagesOf, hfound, Except.map, hall]

/-- Lines of a document are read as the file that a bundle comes back as. -/
def IsFileLines (t : Translation) (b : Text × Bundle) (ls : List (List Char)) : Prop :=
  ∀ {f : List Char → List Char} {newline : List Char} {bs : Bindings}, LineReading f newline →
    Bindings.Alike Namespace.standard bs → (t.language? f b.1).isSome →
    (∀ e ∈ b.2, (t.target? f b.1 e.1).isSome) →
    ∃ x file, Spaced bs (lines newline (ls.map f)) x ∧ x.name = "file".toList ∧
      fileOf x = .ok (b.1, some file) ∧ t.Yields f b file

theorem qualifier_placed {n : Nat} {raw value source name : List Char} :
    ∀ a ∈ placed n (targetLanguage raw value) (fileAttributes source name),
      a.name.qualifier = none := by
  intro a ha
  rw [(placed_perm _ _ _).mem_iff] at ha
  simp only [fileAttributes, List.mem_cons, List.not_mem_nil, or_false] at ha
  rcases ha with rfl | rfl | rfl | rfl <;> rfl

/-- What is read of a file: its name, its language, and the messages of its units. -/
theorem fileOf_eq {x : Element} {source name raw value : List Char} {n : Nat} {es : Fields Text}
    (hattributes : x.attributes =
      Attribute.plain (placed n (targetLanguage raw value) (fileAttributes source name)))
    (hname : name ≠ []) (hvalue : value ≠ []) (hes : es ≠ [])
    (hunits : List.Forall₂ (fun e u => unitMessage u = .ok (some e)) es (unitsOf x)) :
    fileOf x = .ok (.ofChars name, some ⟨.ofChars name, Text.lower (.ofChars value),
      Text.sortBy16 (·.1) (Fields.ofList es)⟩) := by
  have horiginal : x.attribute? "original" = some name := by
    rw [attribute?_eq hattributes qualifier_placed, filter_placed_of_neg _ rfl]
    rfl
  have hlanguage : x.attribute? "target-language" = some value := by
    rw [attribute?_eq hattributes qualifier_placed, filter_placed rfl (by
      simp [fileAttributes, verbatim])]
    rfl
  have hsome : (unitsOf x).isEmpty = false := by
    have hlen := hunits.length_eq
    rw [List.isEmpty_eq_false_iff_exists_mem]
    refine List.exists_mem_of_length_pos ?_
    have := List.length_pos_iff.mpr hes
    omega
  obtain ⟨c, name, rfl⟩ := List.exists_cons_of_ne_nil hname
  obtain ⟨d, value, rfl⟩ := List.exists_cons_of_ne_nil hvalue
  rw [fileOf, horiginal, hlanguage]
  simp only [Option.getD_some, hsome, Bool.false_eq_true, if_false, messagesOf_eq hunits,
    Except.map]

/-- Lines of units are read as units of the entries. -/
theorem units_read (hf : LineReading f newline) (hbs : Bindings.Alike Namespace.standard bs)
    {name : Text} {order : Bundle} {lss : List (List (List Char))}
    (h : List.Forall₂ (IsUnitLines t name) order lss)
    (htargets : ∀ e ∈ order, (t.target? f name e.1).isSome) :
    ∃ xs, List.Forall₂ (Spaced bs) (lss.map fun ls => lines newline (ls.map f)) xs ∧
      List.Forall₂ (fun e x => unitMessage x = .ok (some (t.returned f name e))) order xs ∧
      ∀ x ∈ xs, x.name = "trans-unit".toList := by
  induction h with
  | nil => exact ⟨[], .nil, .nil, by simp⟩
  | @cons e ls order lss hread _ ih =>
    obtain ⟨x, hspaced, hname, hmessage⟩ := hread hf hbs (htargets e (by simp))
    obtain ⟨xs, hxs, hmessages, hnames⟩ := ih fun d hd => htargets d (List.mem_cons_of_mem _ hd)
    exact ⟨x :: xs, .cons hspaced hxs, .cons hmessage hmessages, by simpa [hname] using hnames⟩

theorem valid_readAttributes {source language name : List Char}
    (hsource : Attribute.IsValue source language) (hname : Attribute.IsVerbatim name) :
    ∀ a ∈ readAttributes source language name, a.Valid := by
  have hwritten : Name.isWritten ⟨none, "source-language".toList⟩ = true := by decide
  have hunbound : Namespace.bound? ⟨none, "source-language".toList⟩ = none := by decide
  intro a ha
  simp only [readAttributes, List.mem_cons, List.not_mem_nil, or_false] at ha
  rcases ha with rfl | rfl | rfl
  · exact valid_verbatim (by decide) (by decide) hname
  · exact ⟨hwritten, hunbound, hsource⟩
  · exact valid_verbatim (by decide) (by decide)
      (isVerbatim_of_isIdChar (List.all_eq_true.mp (by decide)))

theorem valid_addedAttributes {source name raw value : List Char} {n : Nat}
    (hsource : Attribute.IsVerbatim source) (hname : Attribute.IsVerbatim name)
    (hvalue : Attribute.IsValue raw value) :
    (∀ a ∈ placed n (targetLanguage raw value) (fileAttributes source name), a.Valid) ∧
      ((placed n (targetLanguage raw value) (fileAttributes source name)).map
        Attribute.name).Nodup := by
  constructor
  · intro a ha
    rw [(placed_perm _ _ _).mem_iff] at ha
    rcases List.mem_cons.mp ha with rfl | ha
    · have hwritten : Name.isWritten ⟨none, "target-language".toList⟩ = true := by decide
      have hunbound : Namespace.bound? ⟨none, "target-language".toList⟩ = none := by decide
      exact ⟨hwritten, hunbound, hvalue⟩
    · exact valid_readAttributes (Attribute.isValue_verbatim hsource) hname a ha
  · have hnames : ([⟨none, "target-language".toList⟩, ⟨none, "original".toList⟩,
        ⟨none, "source-language".toList⟩, ⟨none, "datatype".toList⟩] : List Name).Nodup := by decide
    rw [((placed_perm n _ _).map _).nodup_iff]
    exact hnames

theorem fileLines_of {source : List Char} (hsource : Attribute.IsVerbatim source) (t : Translation)
    {b : Text × Bundle} (hb : LegibleBundle b) {units : List TransUnit}
    (hunits : List.Forall₂ UnitOf b.2 units) :
    ∃ ls : List (List Char),
      Document.translatedLines? t (.ofChars source) b.1 units = some (ls.map .ofChars) ∧
      IsFileLines t b ls := by
  obtain ⟨name, hbname, hne, hname⟩ := hb.named
  obtain ⟨order, horder, hperm⟩ : ∃ order : Bundle,
      List.Forall₂ (fun u e => UnitOf e u) (TransUnit.sorted units) order ∧ order.Perm b.2 :=
    List.perm_comp_forall₂ (sorted_perm units) hunits.flip
  obtain ⟨lss, hlss, hread⟩ := mapM_of_forall₂ (m := Option)
    (k := fun ls : List (List Char) => ls.map Text.ofChars)
    (horder.imp fun u e h => unitLines_of hsource t b.1 h)
  refine ⟨fileLine (addedAttributes source name (t.language b.1)) :: lss.flatten ++ [fileEnd],
    ?_, ?_⟩
  · have hend : Text.ofString "  </body></file>" = .ofChars fileEnd := rfl
    rw [Document.translatedLines?, hlss, hend, hbname, fileLine_eq]
    simp [List.map_flatten]
  · intro f newline bs hf hbs hlanguage htargets
    obtain ⟨value, hvalue⟩ := Option.isSome_iff_exists.mp hlanguage
    obtain ⟨a, ha, hof⟩ := Option.bind_eq_some_iff.mp hvalue
    obtain ⟨hisValue, hvalueNe⟩ := scanned_of_valueOf? hof
    obtain ⟨xs, hspaced, hmessages, hnames⟩ := units_read hf hbs hread fun e he =>
      htargets e (hperm.mem_iff.mp he)
    obtain ⟨hvalid, hdistinct⟩ := valid_addedAttributes (n := a.after) hsource hname hisValue
    obtain ⟨x, hx, hxname, hattributes, hxunits⟩ := spaced_file (isLineEnd hf) hvalid hdistinct
      qualifier_placed hspaced
    have hunitsOf : unitsOf x = xs := by
      rw [hxunits, List.filter_eq_self]
      exact fun u hu => by simp [hnames u hu]
    have hreturned : order.map (t.returned f b.1) ≠ [] := fun h =>
      hb.nonempty (List.perm_nil.mp (List.map_eq_nil_iff.mp h ▸ hperm.symm))
    have hfile := fileOf_eq hattributes hne hvalueNe hreturned
      (by rw [hunitsOf]; exact List.forall₂_map_left_iff.mpr hmessages)
    rw [← hbname] at hfile
    refine ⟨x, _, ?_, hxname, hfile, rfl, ⟨value, hvalue, rfl⟩,
      ⟨order, hperm, Text.sortBy16_perm _ _⟩, Text.sortBy16_pairwise _ _⟩
    rw [ha, addedAttributes, read_fileLines hf hsource hname a value]
    exact hx

end Localization.Xliff
