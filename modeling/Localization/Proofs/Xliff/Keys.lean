import Localization.Proofs.Xliff.RoundTrip

/-! The keys of a translated document: which of them are read back, of messages with comments and of
entries that have an id of their own. -/

namespace Localization.Xliff

open Xml LineReading

variable {t : Translation} {f : List Char → List Char}

theorem legible_iff {key text : List Char} {comments : List (List Char)} :
    Legible key text comments ↔ key ≠ [] ∧ key.all isLegal = true ∧ text ≠ [] ∧
      text.all isLegal = true ∧ (comments.all fun cs => cs.all isLegal) = true := by
  simp only [List.all_eq_true]
  exact ⟨fun h => ⟨h.1, h.2, h.3, h.4, h.5⟩, fun ⟨h₁, h₂, h₃, h₄, h₅⟩ => ⟨h₁, h₂, h₃, h₄, h₅⟩⟩

instance (key text : List Char) (comments : List (List Char)) :
    Decidable (Legible key text comments) :=
  decidable_of_iff _ legible_iff.symm

theorem legibleBundle_singleton (name key text : List Char) (comments : List (List Char)) {v : Json}
    (hname : name ≠ [] ∧ ∀ c ∈ name, isIdChar c = true)
    (hv : Bundle.message? v = some ⟨.ofChars text, comments.map .ofChars⟩)
    (h : Legible key text comments) : LegibleBundle (.ofChars name, [(.ofChars key, v)]) := by
  refine ⟨⟨name, rfl, hname.1, isVerbatim_of_isIdChar hname.2⟩, by simp, fun e he => ?_⟩
  obtain rfl := List.mem_singleton.mp he
  exact ⟨key, text, comments, rfl, hv, h⟩

theorem keys_singleton (b : Text × Bundle) : (Fields.keys [b]).Nodup := by simp

/-- The language of every file and the target of every unit are the same. -/
def uniform : Translation where
  language _ := some ⟨0, "DE".toList⟩
  target _ _ := some ⟨0, "<target>Datei</target>".toList⟩

theorem covers_uniform (bundles : Fields Bundle) : uniform.Covers id bundles := by
  have hlanguage : (valueOf? "DE".toList).isSome = true := by decide +kernel
  have htarget : (targetOf? "<target>Datei</target>".toList).isSome = true := by decide +kernel
  intro b _
  simp only [Translation.language?, Translation.target?, uniform, Option.bind_some, id_eq]
  exact ⟨hlanguage, fun e _ => htarget⟩

theorem message_uniform (name key : Text) : uniform.message id name key = "Datei" := by
  have hmessage : Entity.decode (.ofChars ((targetOf? "<target>Datei</target>".toList).getD [])) =
      "Datei" := by decide +kernel
  simp only [Translation.message, Translation.target?, uniform, Option.bind_some, id_eq]
  exact hmessage

/-- A file that is read has the translation of an entry under a key: it has the key, with what the
entry is translated to unless another entry of the bundle is read under the key too. -/
structure Translation.ReadUnder (t : Translation) (f : List Char → List Char) (b : Text × Bundle)
    (e : Text × Json) (key : Text) (file : LocalizedFile) : Prop where
  name : file.name = b.1
  found : key ∈ Fields.keys file.messages
  message : (∀ e' ∈ b.2, returnedKey e' = key → e' = e) →
    Fields.get? key file.messages = some (t.message f b.1 e.1)

theorem Translation.Yields.readUnder {b : Text × Bundle} {e : Text × Json} {file : LocalizedFile}
    (h : t.Yields f b file) (he : e ∈ b.2) : t.ReadUnder f b e (returnedKey e) file :=
  ⟨h.name, h.mem_keys_iff.mpr ⟨e, he, rfl⟩, h.get?_returned he⟩

/-- A document of bundles has, once it is translated and read, a file for each of them. -/
theorem read_file {source : List Char} (hsource : Attribute.IsVerbatim source)
    {bundles : Fields Bundle} (hkeys : bundles.keys.Nodup)
    (hbundles : ∀ b ∈ bundles, LegibleBundle b) (t : Translation) {b : Text × Bundle}
    (hb : b ∈ bundles) :
    ∃ d doc, Document.ofBundles (.ofChars source) bundles = .ok d ∧
      d.translated? t = some (.ofChars doc) ∧
      ∀ f newline, LineReading f newline → t.Covers f bundles →
        ∃ files, read (f doc) = (.ok files, []) ∧ ∃ file ∈ files, t.Yields f b file := by
  obtain ⟨d, doc, hof, -, htranslated, hread⟩ := read_legible hsource (List.ne_nil_of_mem hb) hkeys
    hbundles t
  refine ⟨d, doc, hof, htranslated, fun f newline hf hcovers => ?_⟩
  obtain ⟨files, order, hfiles, hperm, hyields, -⟩ := hread f newline hf hcovers
  obtain ⟨before, after, rfl⟩ := List.append_of_mem (hperm.mem_iff.mpr hb)
  obtain ⟨files', hyields', hperm'⟩ := List.perm_comp_forall₂ List.perm_middle.symm hyields
  obtain ⟨file, rest, hfile, -, rfl⟩ := List.forall₂_cons_left_iff.mp hyields'
  exact ⟨files, hfiles, file, hperm'.mem_iff.mp (by simp), hfile⟩

/-- A message with comments, under the key that is made of both, is read under the key that is made
anew. That is the key itself unless a comment holds LF, one before the last ends with CR, or a single
comment is empty. -/
theorem read_commented {source : List Char} (hsource : Attribute.IsVerbatim source)
    {bundles : Fields Bundle} (hkeys : bundles.keys.Nodup)
    (hbundles : ∀ b ∈ bundles, LegibleBundle b) (t : Translation) {b : Text × Bundle}
    (hb : b ∈ bundles) {e : Text × Json} (he : e ∈ b.2) {m : Message}
    (hm : Bundle.message? e.2 = some m) (hkey : e.1 = m.key) :
    ∃ d doc, Document.ofBundles (.ofChars source) bundles = .ok d ∧
      d.translated? t = some (.ofChars doc) ∧
      ∀ f newline, LineReading f newline → t.Covers f bundles →
        ∃ files, read (f doc) = (.ok files, []) ∧ ∃ file ∈ files,
          t.ReadUnder f b e (remadeKey m) file ∧
          ((∀ e' ∈ b.2, returnedKey e' = e.1 → e' = e) →
            (e.1 ∈ Fields.keys file.messages ↔ m.comments ≠ [[]] ∧
              (∀ c ∈ m.comments, lineFeed ∉ c) ∧
              ∀ c ∈ m.comments.dropLast, c.getLast? ≠ some (.char '\r'))) := by
  have hreturned : returnedKey e = remadeKey m := by
    have h := returnedKey_key hm
    rwa [← hkey] at h
  obtain ⟨d, doc, hof, htranslated, hread⟩ := read_file hsource hkeys hbundles t hb
  refine ⟨d, doc, hof, htranslated, fun f newline hf hcovers => ?_⟩
  obtain ⟨files, hfiles, file, hfile, hyields⟩ := hread f newline hf hcovers
  refine ⟨files, hfiles, file, hfile, hreturned ▸ hyields.readUnder he, fun honly => ?_⟩
  rw [hyields.mem_keys_iff, ← remadeKey_eq_key_iff, ← hkey, ← hreturned]
  constructor
  · rintro ⟨e', he', h⟩
    obtain rfl := honly e' he' h
    exact h
  · exact fun h => ⟨e, he, h⟩

/-- A comment of two lines comes back as one: its key is lost, and the translation is found under
another one. -/
theorem read_commented_break :
    let e : Text × Json := ("File/main\nmenu",
      .object [("message", .string "File"), ("comment", .array [.string "main\nmenu"])])
    let bundles : Fields Bundle := [("bundle", [e])]
    ∃ d doc, Document.ofBundles "en" bundles = .ok d ∧
      d.translated? uniform = some (.ofChars doc) ∧
      ∃ files, read doc = (.ok files, []) ∧ ∃ file ∈ files,
        Fields.get? "File/mainmenu" file.messages = some ("Datei" : Text) ∧
        e.1 ∉ Fields.keys file.messages := by
  intro e bundles
  have hbundle : LegibleBundle ("bundle", [e]) :=
    legibleBundle_singleton "bundle".toList "File/main\nmenu".toList "File".toList
      ["main\nmenu".toList] ⟨by decide, List.all_eq_true.mp (by decide)⟩ rfl (by decide)
  have hremade : remadeKey ⟨"File", ["main\nmenu"]⟩ = "File/mainmenu" := by decide +kernel
  have hmessage : Bundle.message? e.2 = some ⟨"File", ["main\nmenu"]⟩ := rfl
  obtain ⟨d, doc, hd, hdoc, hread⟩ := read_commented isVerbatim_en (keys_singleton ("bundle", [e]))
    (List.forall_mem_singleton.mpr hbundle) uniform (List.mem_singleton.mpr rfl)
    (List.mem_singleton.mpr rfl) hmessage rfl
  obtain ⟨files, hfiles, file, hfile, hunder, hkey⟩ := hread _ _ .exact (covers_uniform _)
  have honly : ∀ key : Text, ∀ e' ∈ [e], returnedKey e' = key → e' = e :=
    fun _ e' he' _ => List.mem_singleton.mp he'
  refine ⟨d, doc, hd, hdoc, files, hfiles, file, hfile, ?_, ?_⟩
  · rw [← hremade, hunder.message (honly _), message_uniform]
  · rw [hkey (honly _)]
    decide

/-- An entry without comments whose key starts with its message is read under the message. That is
the key itself only if nothing comes after the message in it. -/
theorem read_prefixed {source : List Char} (hsource : Attribute.IsVerbatim source)
    {bundles : Fields Bundle} (hkeys : bundles.keys.Nodup)
    (hbundles : ∀ b ∈ bundles, LegibleBundle b) (t : Translation) {b : Text × Bundle}
    (hb : b ∈ bundles) {e : Text × Json} (he : e ∈ b.2) {m : Message}
    (hm : Bundle.message? e.2 = some m) (hplain : m.comments = []) (hstarts : m.text <+: e.1) :
    ∃ d doc, Document.ofBundles (.ofChars source) bundles = .ok d ∧
      d.translated? t = some (.ofChars doc) ∧
      ∀ f newline, LineReading f newline → t.Covers f bundles →
        ∃ files, read (f doc) = (.ok files, []) ∧ ∃ file ∈ files,
          t.ReadUnder f b e m.text file ∧
          ((∀ e' ∈ b.2, returnedKey e' = e.1 → e' = e) →
            (e.1 ∈ Fields.keys file.messages ↔ e.1 = m.text)) := by
  have hreturned : returnedKey e = m.text := by
    have hremade : remadeKey m = m.text := by simp [remadeKey, hplain, Text.join]
    have hhashed : m.text.isPrefixOf e.1 = true := List.isPrefixOf_iff_prefix.mpr hstarts
    simp only [returnedKey, hm, hhashed, Bool.true_or, if_true, hremade]
  obtain ⟨d, doc, hof, htranslated, hread⟩ := read_file hsource hkeys hbundles t hb
  refine ⟨d, doc, hof, htranslated, fun f newline hf hcovers => ?_⟩
  obtain ⟨files, hfiles, file, hfile, hyields⟩ := hread f newline hf hcovers
  refine ⟨files, hfiles, file, hfile, hreturned ▸ hyields.readUnder he, fun honly => ?_⟩
  rw [hyields.mem_keys_iff]
  constructor
  · rintro ⟨e', he', h⟩
    obtain rfl := honly e' he' h
    exact h.symm.trans hreturned
  · exact fun h => ⟨e, he, hreturned.trans h.symm⟩

/-- A setting of a manifest that happens to begin with its own text loses its key: a digest takes
the place of the key, and nothing that is written says what came after the text. -/
theorem read_prefixed_setting :
    let e : Text × Json := ("File menu", .string "File")
    let bundles : Fields Bundle := [("package", [e])]
    ∃ d doc, Document.ofBundles "en" bundles = .ok d ∧
      d.translated? uniform = some (.ofChars doc) ∧
      ∃ files, read doc = (.ok files, []) ∧ ∃ file ∈ files,
        Fields.get? "File" file.messages = some ("Datei" : Text) ∧
        e.1 ∉ Fields.keys file.messages := by
  intro e bundles
  have hbundle : LegibleBundle ("package", [e]) :=
    legibleBundle_singleton "package".toList "File menu".toList "File".toList []
      ⟨by decide, List.all_eq_true.mp (by decide)⟩ rfl (by decide)
  have hmessage : Bundle.message? e.2 = some ⟨"File", []⟩ := rfl
  obtain ⟨d, doc, hd, hdoc, hread⟩ := read_prefixed isVerbatim_en (keys_singleton ("package", [e]))
    (List.forall_mem_singleton.mpr hbundle) uniform (List.mem_singleton.mpr rfl)
    (List.mem_singleton.mpr rfl) hmessage rfl (by decide)
  obtain ⟨files, hfiles, file, hfile, hunder, hkey⟩ := hread _ _ .exact (covers_uniform _)
  have honly : ∀ key : Text, ∀ e' ∈ [e], returnedKey e' = key → e' = e :=
    fun _ e' he' _ => List.mem_singleton.mp he'
  refine ⟨d, doc, hd, hdoc, files, hfiles, file, hfile, ?_, ?_⟩
  · rw [hunder.message (honly _), message_uniform]
  · rw [hkey (honly _)]
    decide

/-- An entry whose key does not start with its message has the key as its id. A key without tabs is
read back, unless it looks like a digest: then it gives way to the key that is made anew. -/
theorem read_literal {source : List Char} (hsource : Attribute.IsVerbatim source)
    {bundles : Fields Bundle} (hkeys : bundles.keys.Nodup)
    (hbundles : ∀ b ∈ bundles, LegibleBundle b) (t : Translation) {b : Text × Bundle}
    (hb : b ∈ bundles) {e : Text × Json} (he : e ∈ b.2) {m : Message}
    (hm : Bundle.message? e.2 = some m) (hliteral : ¬ m.text <+: e.1)
    (htab : CodePoint.char '\t' ∉ e.1) :
    ∃ d doc, Document.ofBundles (.ofChars source) bundles = .ok d ∧
      d.translated? t = some (.ofChars doc) ∧
      ∀ f newline, LineReading f newline → t.Covers f bundles →
        ∃ files, read (f doc) = (.ok files, []) ∧ ∃ file ∈ files,
          t.ReadUnder f b e (if isHashed (Entity.encode e.1) then remadeKey m else e.1) file := by
  have hreturned : returnedKey e = if isHashed (Entity.encode e.1) then remadeKey m else e.1 := by
    have hblanked : blanked e.1 = e.1 := by
      have hplain : e.1.map (fun p => if p = .char '\t' then .char ' ' else p) = e.1.map id :=
        List.map_congr_left fun p hp => if_neg fun h : p = .char '\t' => htab (h ▸ hp)
      rw [blanked, hplain, List.map_id]
    have hno : m.text.isPrefixOf e.1 = false := by
      rwa [← Bool.not_eq_true, List.isPrefixOf_iff_prefix]
    simp only [returnedKey, hm, hblanked, hno, Bool.false_or]
  obtain ⟨d, doc, hof, htranslated, hread⟩ := read_file hsource hkeys hbundles t hb
  refine ⟨d, doc, hof, htranslated, fun f newline hf hcovers => ?_⟩
  obtain ⟨files, hfiles, file, hfile, hyields⟩ := hread f newline hf hcovers
  exact ⟨files, hfiles, file, hfile, hreturned ▸ hyields.readUnder he⟩

/-- The key of a setting in a manifest is read back, with the markup in it. -/
theorem read_literal_markup :
    let e : Text × Json := ("view.\"<files>\"&title", .string "File")
    let bundles : Fields Bundle := [("package", [e])]
    ∃ d doc, Document.ofBundles "en" bundles = .ok d ∧
      d.translated? uniform = some (.ofChars doc) ∧
      ∃ files, read doc = (.ok files, []) ∧ ∃ file ∈ files,
        Fields.get? e.1 file.messages = some ("Datei" : Text) := by
  intro e bundles
  have hbundle : LegibleBundle ("package", [e]) :=
    legibleBundle_singleton "package".toList "view.\"<files>\"&title".toList "File".toList []
      ⟨by decide, List.all_eq_true.mp (by decide)⟩ rfl (by decide)
  have hhashed : isHashed (Entity.encode e.1) = false := by decide +kernel
  have hmessage : Bundle.message? e.2 = some ⟨"File", []⟩ := rfl
  obtain ⟨d, doc, hd, hdoc, hread⟩ := read_literal isVerbatim_en (keys_singleton ("package", [e]))
    (List.forall_mem_singleton.mpr hbundle) uniform (List.mem_singleton.mpr rfl)
    (List.mem_singleton.mpr rfl) hmessage (by decide) (by decide)
  obtain ⟨files, hfiles, file, hfile, hunder⟩ := hread _ _ .exact (covers_uniform _)
  rw [hhashed, if_neg Bool.false_ne_true] at hunder
  refine ⟨d, doc, hd, hdoc, files, hfiles, file, hfile, ?_⟩
  rw [hunder.message fun e' he' _ => List.mem_singleton.mp he', message_uniform]

/-- A key that looks like a digest is not read back: the unit is read under its message. -/
theorem read_digest_lookalike :
    let e : Text × Json := (hashMark ++ List.replicate 64 (.char '0'), .string "File")
    let bundles : Fields Bundle := [("package", [e])]
    ∃ d doc, Document.ofBundles "en" bundles = .ok d ∧
      d.translated? uniform = some (.ofChars doc) ∧
      ∃ files, read doc = (.ok files, []) ∧ ∃ file ∈ files,
        Fields.get? "File" file.messages = some ("Datei" : Text) ∧
        e.1 ∉ Fields.keys file.messages := by
  intro e bundles
  have hbundle : LegibleBundle ("package", [e]) :=
    legibleBundle_singleton "package".toList ("++CODE++".toList ++ List.replicate 64 '0')
      "File".toList [] ⟨by decide, List.all_eq_true.mp (by decide)⟩ rfl (by decide)
  have hreturned : returnedKey e = "File" := by decide +kernel
  obtain ⟨d, doc, hd, hdoc, hread⟩ := read_file isVerbatim_en (keys_singleton ("package", [e]))
    (List.forall_mem_singleton.mpr hbundle) uniform (List.mem_singleton.mpr rfl)
  obtain ⟨files, hfiles, file, hfile, hyields⟩ := hread _ _ .exact (covers_uniform _)
  refine ⟨d, doc, hd, hdoc, files, hfiles, file, hfile, ?_, ?_⟩
  · rw [← hreturned, hyields.get?_returned (List.mem_singleton.mpr rfl)
      fun e' he' _ => List.mem_singleton.mp he', message_uniform]
  · rw [hyields.mem_keys_iff]
    rintro ⟨e', he', hkey⟩
    obtain rfl := List.mem_singleton.mp he'
    exact absurd (hreturned.symm.trans hkey) (by decide)

end Localization.Xliff
