import Localization.Proofs.Xliff.Keys
import Mathlib.Data.List.Nodup

/-! Targets that repeat the source of their unit. Both are written with entities once. A source is
read as markup and nothing else, but entities in a target are decoded after that once more: what
comes back is the decoded message. -/

namespace Localization.Xliff

open Xml Xml.Content LineReading

variable {t : Translation} {f : List Char → List Char} {newline : List Char}

/-- Characters are a target, with any blanks before it and any attributes, that holds the characters
between the tags of the source of a text. -/
def RepeatsSource (text cs : List Char) : Prop :=
  ∃ blanks opening closing e left, cs = blanks ++ (opening ++ (encoded text ++ closing)) ∧
    (∀ c ∈ blanks, isBlank c = true) ∧ Opens opening e ∧ e.name = "target".toList ∧
    token closing = .ok (.closing e.written left, [])

/-- Every file has a language, and every unit a target that repeats its source. -/
def Translation.Repeats (t : Translation) (f : List Char → List Char) (bundles : Fields Bundle) :
    Prop :=
  ∀ b ∈ bundles, (t.language? f b.1).isSome ∧ ∀ e ∈ b.2, ∀ text : List Char,
    Bundle.textOf e.2 = .ok (.ofChars text) →
    ∃ a, t.target b.1 (Entity.encode e.1) = some a ∧ RepeatsSource text (f a.chars)

/-- A target that repeats the source of a text says the text. -/
theorem targetOf?_repeats {text cs : List Char} (h : RepeatsSource text cs) (hne : text ≠ [])
    (hlegal : ∀ c ∈ text, isLegal c = true) : targetOf? cs = some text := by
  obtain ⟨blanks, opening, closing, e, left, rfl, hblanks, hopens, hname, hclosing⟩ := h
  obtain ⟨bs, -, helement⟩ := element_tags hopens hclosing (encoded text)
  obtain ⟨texts, -, hchars, hholds⟩ := holds_charData bs (charData_encoded hlegal)
  obtain ⟨more, rfl⟩ : ∃ more, opening = '<' :: more := by
    obtain ⟨t, htoken, -, -⟩ := hopens
    exact head_of_token htoken rfl
  have hdrop : (blanks ++ ('<' :: more ++ (encoded text ++ closing))).dropWhile isBlank =
      '<' :: more ++ (encoded text ++ closing) := by
    rw [List.dropWhile_append_of_pos hblanks, List.cons_append,
      List.dropWhile_cons_of_neg (by decide)]
  have hall : ∀ n, Element.chars ⟨n, e.attributes, texts⟩ = text := fun _ => hchars
  rw [targetOf?, hdrop, helement hholds]
  simp [hall, hname, hne]

theorem LegibleEntry.text {e : Text × Json} (h : LegibleEntry e) :
    ∃ text, Bundle.textOf e.2 = .ok (.ofChars text) ∧ text ≠ [] ∧
      ∀ c ∈ text, isLegal c = true := by
  obtain ⟨key, text, comments, -, hmessage, hlegible⟩ := h
  refine ⟨text, ?_, hlegible.text_nonempty, hlegible.text⟩
  rw [Bundle.message?] at hmessage
  split at hmessage
  · rename_i u us htext _
    obtain ⟨rfl, -⟩ := by simpa using hmessage
    exact htext
  · cases hmessage

theorem Translation.Repeats.target? {bundles : Fields Bundle} (h : t.Repeats f bundles)
    {b : Text × Bundle} (hb : b ∈ bundles) (hlegible : LegibleBundle b) {e : Text × Json}
    (he : e ∈ b.2) {text : Text} (htext : Bundle.textOf e.2 = .ok text) :
    ∃ cs, t.target? f b.1 e.1 = some cs ∧ text = .ofChars cs := by
  obtain ⟨cs, hcs, hne, hlegal⟩ := (hlegible.legible e he).text
  obtain ⟨a, ha, hrepeats⟩ := (h b hb).2 e he cs hcs
  refine ⟨cs, ?_, Except.ok.inj (htext.symm.trans hcs)⟩
  rw [Translation.target?, ha]
  exact targetOf?_repeats hrepeats hne hlegal

theorem Translation.Repeats.covers {bundles : Fields Bundle} (h : t.Repeats f bundles)
    (hlegible : ∀ b ∈ bundles, LegibleBundle b) : t.Covers f bundles := by
  intro b hb
  refine ⟨(h b hb).1, fun e he => ?_⟩
  obtain ⟨text, htext, -, -⟩ := ((hlegible b hb).legible e he).text
  obtain ⟨cs, hcs, -⟩ := h.target? hb (hlegible b hb) he htext
  rw [hcs]
  rfl

/-- A file that is read has the keys of a bundle, each with the text of its value, in which entities
are decoded. -/
structure Echoes (b : Text × Bundle) (file : LocalizedFile) : Prop where
  name : file.name = b.1
  keys : (Fields.keys file.messages).Perm (Fields.keys b.2)
  message : ∀ e ∈ b.2, ∀ text, Bundle.textOf e.2 = .ok text →
    Fields.get? e.1 file.messages = some (Entity.decode text)

theorem Translation.Yields.echoes {b : Text × Bundle} {file : LocalizedFile}
    (h : t.Yields f b file) (hdistinct : (Fields.keys b.2).Nodup)
    (hkeys : ∀ e ∈ b.2, returnedKey e = e.1)
    (hmessage : ∀ e ∈ b.2, ∀ text, Bundle.textOf e.2 = .ok text →
      t.message f b.1 e.1 = Entity.decode text) : Echoes b file := by
  refine ⟨h.name, ?_, fun e he text htext => ?_⟩
  · rw [List.perm_ext_iff_of_nodup h.nodup_keys hdistinct]
    intro key
    rw [h.mem_keys_iff, Fields.keys, List.mem_map]
    constructor
    · rintro ⟨e, he, rfl⟩
      exact ⟨e, he, (hkeys e he).symm⟩
    · rintro ⟨e, he, rfl⟩
      exact ⟨e, he, hkeys e he⟩
  · have honly : ∀ e' ∈ b.2, returnedKey e' = returnedKey e → e' = e := by
      intro e' he' hsame
      rw [hkeys e' he', hkeys e he] at hsame
      exact List.inj_on_of_nodup_map hdistinct he' he hsame
    rw [← hmessage e he text htext, ← hkeys e he]
    nth_rewrite 2 [hkeys e he]
    exact h.get?_returned he honly

/-- Bundles whose keys are read back make up a document that says, once every target repeats its
source, the decoded texts of the bundles. So a key comes back with its own text exactly if no entity
occurs in the text. -/
theorem read_repeated {source : List Char} (hsource : Attribute.IsVerbatim source)
    {bundles : Fields Bundle} (hne : bundles ≠ []) (hnames : bundles.keys.Nodup)
    (hbundles : ∀ b ∈ bundles, LegibleBundle b)
    (hkeys : ∀ b ∈ bundles, (Fields.keys b.2).Nodup ∧ ∀ e ∈ b.2, returnedKey e = e.1)
    (t : Translation) :
    ∃ d doc, Document.ofBundles (.ofChars source) bundles = .ok d ∧
      d.translated? t = some (.ofChars doc) ∧
      ∀ f newline, LineReading f newline → t.Repeats f bundles →
        ∃ files order, read (f doc) = (.ok files, []) ∧ order.Perm bundles ∧
          List.Forall₂ (fun b file => Echoes b file ∧
            ∀ e ∈ b.2, ∀ text, Bundle.textOf e.2 = .ok text →
              (Fields.get? e.1 file.messages = some text ↔
                ∀ entity ∈ Entity.decodeOrder, occursIn entity.1 text = false)) order files := by
  obtain ⟨d, doc, hof, -, htranslated, hread⟩ := read_legible hsource hne hnames hbundles t
  refine ⟨d, doc, hof, htranslated, fun f newline hf hrepeats => ?_⟩
  obtain ⟨files, order, hfiles, hperm, hyields, -⟩ :=
    hread f newline hf (hrepeats.covers hbundles)
  refine ⟨files, order, hfiles, hperm, ?_⟩
  have hechoes : ∀ b file, b ∈ order → t.Yields f b file → Echoes b file := by
    intro b file hb hyield
    have hb := hperm.mem_iff.mp hb
    apply hyield.echoes (hkeys b hb).1 (hkeys b hb).2
    intro e he text htext
    obtain ⟨cs, hcs, rfl⟩ := hrepeats.target? hb (hbundles b hb) he htext
    rw [Translation.message, hcs, Option.getD_some]
  have hall := (List.forall₂_and_left order files).mpr ⟨fun b hb => hb, hyields⟩
  refine hall.imp fun b file hfile => ?_
  obtain ⟨hb, hyield⟩ := hfile
  have hecho := hechoes b file hb hyield
  refine ⟨hecho, fun e he text htext => ?_⟩
  rw [hecho.message e he text htext, Option.some_inj, Entity.decode_eq_self_iff]

/-- Every file has one language, and every unit the target that repeats the source of a text. -/
def repeating (text : List Char) : Translation where
  language _ := some ⟨0, "DE".toList⟩
  target _ _ := some ⟨0, "<target>".toList ++ (encoded text ++ closingTag "target".toList)⟩

theorem repeatsSource_plain (text : List Char) :
    RepeatsSource text ("<target>".toList ++ (encoded text ++ closingTag "target".toList)) := by
  obtain ⟨e, hopens, hwritten, hname⟩ : ∃ e, Opens "<target>".toList e ∧
      e.written = "target".toList ∧ e.name = "target".toList := ⟨_, ⟨_, rfl, rfl, rfl⟩, rfl, rfl⟩
  obtain ⟨left, hclosing⟩ := token_closingTag (n := "target".toList) (by decide) []
  refine ⟨[], "<target>".toList, closingTag "target".toList, e, left, rfl, by simp, hopens, hname, ?_⟩
  rw [hwritten]
  simpa using hclosing

/-- A message that talks about an entity comes back as the character of the entity. -/
theorem read_repeated_entity :
    let e : Text × Json := ("&amp;", .string "&amp;")
    let bundles : Fields Bundle := [("bundle", [e])]
    (repeating "&amp;".toList).Repeats id bundles ∧
    ∃ d doc, Document.ofBundles "en" bundles = .ok d ∧
      d.translated? (repeating "&amp;".toList) = some (.ofChars doc) ∧
      ∃ files, read doc = (.ok files, []) ∧ ∃ file ∈ files,
        Fields.get? e.1 file.messages = some ("&" : Text) := by
  intro e bundles
  have hbundle : LegibleBundle ("bundle", [e]) :=
    legibleBundle_singleton "bundle".toList "&amp;".toList "&amp;".toList []
      ⟨by decide, List.all_eq_true.mp (by decide)⟩ rfl (by decide)
  have hreturned : returnedKey e = e.1 := by decide +kernel
  have hdecoded : Entity.decode ("&amp;" : Text) = "&" := by decide +kernel
  have hrepeats : (repeating "&amp;".toList).Repeats id bundles := by
    have hlanguage : (valueOf? "DE".toList).isSome = true := by decide +kernel
    intro b hb
    obtain rfl := List.mem_singleton.mp hb
    refine ⟨hlanguage, fun e' he' text htext => ⟨_, rfl, ?_⟩⟩
    obtain rfl := List.mem_singleton.mp he'
    obtain rfl : "&amp;".toList = text :=
      List.map_injective_iff.mpr (fun _ _ => CodePoint.char.inj) (Except.ok.inj htext)
    exact repeatsSource_plain _
  obtain ⟨d, doc, hd, hdoc, hread⟩ := read_repeated isVerbatim_en (List.cons_ne_nil _ _)
    (keys_singleton ("bundle", [e])) (List.forall_mem_singleton.mpr hbundle)
    (List.forall_mem_singleton.mpr ⟨by simp, List.forall_mem_singleton.mpr hreturned⟩)
    (repeating "&amp;".toList)
  obtain ⟨files, order, hfiles, hperm, hechoes⟩ := hread _ _ .exact hrepeats
  obtain rfl := List.perm_singleton.mp hperm
  obtain ⟨file, rest, ⟨hecho, -⟩, -, rfl⟩ := List.forall₂_cons_left_iff.mp hechoes
  refine ⟨hrepeats, d, doc, hd, hdoc, _, hfiles, file, by simp, ?_⟩
  rw [hecho.message e (List.mem_singleton.mpr rfl) "&amp;" rfl, hdecoded]

end Localization.Xliff
