import Localization.Proofs.Order
import Localization.Proofs.Result
import Localization.Proofs.Xliff.Returned

/-! The unit of an entry, as it is written, and as it is read with the target that was added. -/

namespace Localization.Xliff

open Xml Xml.Content LineReading

/-- The characters of a note: its comments as lines. -/
def noteChars (newline : List Char) : List (List Char) → List Char
  | [] => []
  | c :: cs => encoded c ++ lines newline (cs.map encoded)

theorem join_lines (l : List Char) (ls : List (List Char)) :
    Text.join crlf ((l :: ls).map .ofChars) = Text.ofChars (l ++ lines ['\r', '\n'] ls) :=
  join_ofChars ['\r', '\n'] l ls

theorem join_noteChars (comments : List (List Char)) :
    Text.join crlf (comments.map fun c => Entity.encode (.ofChars c)) =
      Text.ofChars (noteChars ['\r', '\n'] comments) := by
  have hmap : (comments.map fun c => Entity.encode (.ofChars c)) =
      (comments.map encoded).map .ofChars := by simp [encode_ofChars]
  rw [hmap]
  cases comments with
  | nil => rfl
  | cons c cs => rw [List.map_cons, join_lines, noteChars]

theorem texts?_eq_some {items : List Json} {ts : List Text} (h : Bundle.texts? items = some ts) :
    items = ts.map .string := by
  induction items generalizing ts with
  | nil =>
    obtain rfl : ts = [] := by simpa [Bundle.texts?] using h.symm
    rfl
  | cons v items ih =>
    simp only [Bundle.texts?, List.mapM_cons, Option.bind_eq_bind, Option.bind_eq_some_iff] at h
    obtain ⟨t, ht, us, hus, he⟩ := h
    obtain rfl : t :: us = ts := by simpa using he
    cases v with
    | string u =>
      obtain rfl : u = t := by simpa [Json.string?] using ht
      rw [List.map_cons, ih hus]
    | _ => simp [Json.string?] at ht

theorem noteOf_eq {v : Json} {ts : List Text} (h : Bundle.commentTexts? v = some ts) :
    ∃ note, noteOf (Bundle.commentOf v) = .ok note ∧
      note.getD [] = Text.join crlf (ts.map Entity.encode) := by
  rw [Bundle.commentTexts?] at h
  split at h
  · rename_i hnone
    obtain rfl : ts = [] := by simpa using h.symm
    exact ⟨none, by rw [hnone, noteOf], rfl⟩
  · rename_i c hcomment
    rw [hcomment, noteOf]
    split at h
    · rename_i hpresent
      obtain ⟨items, hitems, hts⟩ := Option.bind_eq_some_iff.mp h
      obtain rfl := texts?_eq_some hts
      have hparts : (ts.map Json.string).mapM encodedPart = .ok (ts.map Entity.encode) := by
        rw [List.mapM_map]
        exact mapM_eq_ok fun t _ => rfl
      refine ⟨some (Text.join crlf (ts.map Entity.encode)), ?_, rfl⟩
      simp only [hpresent, hitems, hparts, Except.map, Bool.not_true, Bool.false_eq_true, if_false]
    · rename_i habsent
      obtain rfl : ts = [] := by simpa using h.symm
      refine ⟨none, ?_, rfl⟩
      simp only [eq_false_of_ne_true habsent, Bool.not_false, if_true]

/-- A unit stands for the message of a key. -/
structure StandsFor (key : Text) (m : Message) (u : TransUnit) : Prop where
  id : u.id = Entity.encode key
  message : u.message = Entity.encode m.text
  comment : u.comment.getD [] = Text.join crlf (m.comments.map Entity.encode)

theorem ofEntry_eq (key : Text) {v : Json} {m : Message} (h : Bundle.message? v = some m) :
    ∃ u, TransUnit.ofEntry key v = .ok u ∧ StandsFor key m u := by
  rw [Bundle.message?] at h
  split at h
  · rename_i t ts htext hcomments
    obtain rfl := Option.some.inj h
    have hmessage := Bundle.messageOf_of_textOf htext
    obtain ⟨note, hnote, hchars⟩ := noteOf_eq hcomments
    refine ⟨⟨Entity.encode key, Entity.encode t, note⟩, ?_, rfl, rfl, hchars⟩
    simp only [TransUnit.ofEntry, hmessage, hnote, encodedPart, bind, Except.bind, pure,
      Except.pure]
  · cases h

/-! The lines of a unit. -/

def verbatim (name : Name) (value : List Char) : Attribute := ⟨name, value, value⟩

def idAttribute (id : List Char) : Attribute := verbatim ⟨none, "id".toList⟩ id

def languageAttribute (source : List Char) : Attribute :=
  verbatim ⟨some "xml".toList, "lang".toList⟩ source

def indent (n : Nat) : List Char := List.replicate n ' '

def sourceElement (source text : List Char) : List Char :=
  openingTag "source".toList [languageAttribute source] ++ encoded text ++
    closingTag "source".toList

def noteElement (newline : List Char) (comments : List (List Char)) : List Char :=
  openingTag "note".toList [] ++ noteChars newline comments ++ closingTag "note".toList

/-- The elements of a unit as they are written. -/
def unitParts (newline source text : List Char) (comments : List (List Char)) : List (List Char) :=
  sourceElement source text :: if comments.isEmpty then [] else [noteElement newline comments]

/-- The lines of a unit, the elements in it each on a line of its own. -/
def unitLines (newline source id text : List Char) (comments : List (List Char)) :
    List (List Char) :=
  (indent 4 ++ openingTag "trans-unit".toList [idAttribute id]) ::
    ((unitParts newline source text comments).map (indent 6 ++ ·) ++
      [indent 4 ++ closingTag "trans-unit".toList])

/-- The comments that leave a note: a single one that is empty leaves none. -/
def noted (comments : List (List Char)) : List (List Char) :=
  if comments = [[]] then [] else comments

theorem noteChars_noted (newline : List Char) (comments : List (List Char)) :
    noteChars newline (noted comments) = noteChars newline comments := by
  by_cases h : comments = [[]]
  · rw [h]
    rfl
  · rw [noted, if_neg h]

theorem noteText_noted (comments : List (List Char)) :
    noteText (noted comments) = noteText comments := by
  by_cases h : comments = [[]]
  · rw [h]
    rfl
  · rw [noted, if_neg h]

theorem noted_eq_nil_iff {comments : List (List Char)} :
    noted comments = [] ↔ comments = [] ∨ comments = [[]] := by
  unfold noted
  split
  · rename_i h
    simp [h]
  · rename_i h
    simp [h]

/-- A note is empty exactly if there are no comments that leave one. -/
theorem noteChars_eq_nil_iff {newline : List Char} (hnewline : newline ≠ [])
    {comments : List (List Char)} : noteChars newline comments = [] ↔ noted comments = [] := by
  rw [noted_eq_nil_iff]
  cases comments with
  | nil => simp [noteChars]
  | cons c cs =>
    have hc : encoded c = [] ↔ c = [] :=
      ⟨fun h => by_contra fun hne => encoded_ne_nil hne h, fun h => by rw [h]; rfl⟩
    cases cs with
    | nil => simp [noteChars, lines, hc]
    | cons d cs => simp [noteChars, lines, hnewline]

/-- The line of a note, unless it is empty. -/
def noteLines (note : Text) : List Text :=
  if note.isEmpty then [] else [Text.ofString "      <note>" ++ note ++ "</note>"]

theorem lines?_of_nonempty {u : TransUnit} (hid : u.id.isEmpty = false)
    (hmessage : u.message.isEmpty = false) (language : Text) : u.lines? language = some (
      [Text.ofString "    <trans-unit id=\"" ++ Entity.encode u.writtenId ++ "\">",
        Text.ofString "      <source xml:lang=\"" ++ language ++ "\">" ++ u.message ++
          "</source>"] ++
      noteLines (u.comment.getD []) ++ [Text.ofString "    </trans-unit>"]) := by
  rw [TransUnit.lines?, hid, hmessage]
  cases u.comment <;> rfl

theorem noteLines_noteChars (comments : List (List Char)) :
    noteLines (.ofChars (noteChars ['\r', '\n'] comments)) = if (noted comments).isEmpty then []
      else [Text.ofString "      <note>" ++ .ofChars (noteChars ['\r', '\n'] (noted comments)) ++
        "</note>"] := by
  have hempty : (Text.ofChars (noteChars ['\r', '\n'] comments)).isEmpty =
      (noted comments).isEmpty := by
    rw [Bool.eq_iff_iff, Text.ofChars, List.isEmpty_map, List.isEmpty_iff, List.isEmpty_iff]
    exact noteChars_eq_nil_iff (by simp)
  rw [noteLines, hempty, noteChars_noted]

/-- The id of a key with a message: the characters between quotes, and what they are read as. -/
inductive IsId (key text : List Char) : List Char → List Char → Prop
  | digest {id : List Char} (h : text <+: key) (hid : ∀ c ∈ id, isIdChar c = true)
    (hhashed : isHashed (.ofChars id) = true) : IsId key text id id
  | literal (h : ¬ text <+: key) :
    IsId key text (encoded (encoded key)) (encoded (key.map blankedChar))

theorem isLegal_encoded {cs : List Char} (h : ∀ c ∈ cs, isLegal c = true) :
    ∀ c ∈ encoded cs, isLegal c = true := by
  intro c hc
  rw [encoded, List.mem_flatMap] at hc
  obtain ⟨d, hd, hc⟩ := hc
  rcases encodedChar_reference d with ⟨ref, r, hone, -, -, hverbatim⟩ | ⟨hone, -⟩
  · rw [hone] at hc
    rcases List.mem_cons.mp hc with rfl | hc
    · decide
    · exact (hverbatim c hc).1
  · rw [hone, List.mem_singleton] at hc
    exact hc ▸ h d hd

theorem IsId.isValue {key text raw value : List Char} (h : IsId key text raw value)
    (hkey : ∀ c ∈ key, isLegal c = true) : Attribute.IsValue raw value := by
  cases h with
  | digest _ hid => exact Attribute.isValue_verbatim (isVerbatim_of_isIdChar hid)
  | literal =>
    rw [← map_blankedChar_encoded]
    exact isValue_encoded (isLegal_encoded hkey)

theorem IsId.not_mem {key text raw value : List Char} (h : IsId key text raw value) :
    '\r' ∉ raw := by
  cases h with
  | digest _ hid => exact fun hmem => absurd (hid _ hmem) (by decide)
  | literal => exact (not_mem_encoded _).2.1

/-- The lines of the unit of a key with a message, which has the id between quotes. -/
theorem lines?_written {key : Text} {text raw : List Char} {comments : List (List Char)}
    {u : TransUnit} (hu : StandsFor key ⟨.ofChars text, comments.map .ofChars⟩ u)
    (hid : u.id.isEmpty = false) (hmessage : u.message.isEmpty = false)
    (hraw : Entity.encode u.writtenId = .ofChars raw) (source : List Char) : u.lines? (.ofChars source) =
      some ((unitLines ['\r', '\n'] source raw text (noted comments)).map .ofChars) := by
  have hcomment : u.comment.getD [] = .ofChars (noteChars ['\r', '\n'] comments) := by
    rw [hu.comment, List.map_map]
    exact join_noteChars comments
  rw [lines?_of_nonempty hid hmessage, hraw, hu.message, encode_ofChars, hcomment,
    noteLines_noteChars]
  cases noted comments with
  | nil => simp [unitLines, unitParts, sourceElement, openingTag, closingTag, indent, idAttribute,
      languageAttribute, verbatim, Attribute.written, Name.written, Text.ofString]
  | cons c cs => simp [unitLines, unitParts, sourceElement, noteElement, openingTag, closingTag,
      indent, idAttribute, languageAttribute, verbatim, Attribute.written, Name.written,
      Text.ofString]

/-- An id is a digest exactly if the key begins with the message. -/
theorem isPrefixOf_id_iff {key : Text} {m : Message} {u : TransUnit} (h : StandsFor key m u) :
    u.message.isPrefixOf u.id = true ↔ m.text <+: key := by
  rw [h.id, h.message, List.isPrefixOf_iff_prefix, Entity.encode_prefix_iff]

/-- What is written between quotes: a digest if the key begins with the message. -/
theorem encode_writtenId {key : Text} {m : Message} {u : TransUnit} (h : StandsFor key m u) :
    (m.text <+: key → ∃ id, Entity.encode u.writtenId = .ofChars id ∧
      (∀ c ∈ id, isIdChar c = true) ∧ isHashed (.ofChars id) = true) ∧
    (¬ m.text <+: key → Entity.encode u.writtenId = Entity.encode (Entity.encode key)) := by
  constructor
  · intro hprefix
    obtain ⟨id, hhash, hchars, hhashed⟩ := hashId_eq u.id
    refine ⟨id, ?_, hchars, hhashed⟩
    rw [TransUnit.writtenId, if_pos ((isPrefixOf_id_iff h).mpr hprefix), hhash, encode_ofChars,
      encoded_of_isIdChar hchars]
  · intro hprefix
    rw [TransUnit.writtenId, if_neg (mt (isPrefixOf_id_iff h).mp hprefix), h.id]

/-- The lines of the unit of a key with a message. -/
theorem lines?_eq {key text : List Char} {comments : List (List Char)} {u : TransUnit}
    (hu : StandsFor (.ofChars key) ⟨.ofChars text, comments.map .ofChars⟩ u)
    (hlegible : Legible key text comments) (source : List Char) :
    ∃ raw value, IsId key text raw value ∧ u.lines? (.ofChars source) =
      some ((unitLines ['\r', '\n'] source raw text (noted comments)).map .ofChars) := by
  have hstarts : Text.ofChars text <+: Text.ofChars key ↔ text <+: key :=
    List.prefix_map_iff_of_injective fun _ _ => CodePoint.char.inj
  obtain ⟨hdigest, hliteral⟩ := encode_writtenId hu
  obtain ⟨raw, value, hisId, hwritten⟩ : ∃ raw value, IsId key text raw value ∧
      Entity.encode u.writtenId = .ofChars raw := by
    by_cases h : text <+: key
    · obtain ⟨id, hwritten, hchars, hhashed⟩ := hdigest (hstarts.mpr h)
      exact ⟨id, id, .digest h hchars hhashed, hwritten⟩
    · refine ⟨_, _, .literal h, ?_⟩
      rw [hliteral (mt hstarts.mp h), encode_ofChars, encode_ofChars]
  have hnonempty : u.id.isEmpty = false ∧ u.message.isEmpty = false := by
    rw [hu.id, hu.message, encode_ofChars, encode_ofChars]
    simp [Text.ofChars, encoded_ne_nil hlegible.key_nonempty, encoded_ne_nil hlegible.text_nonempty]
  exact ⟨raw, value, hisId, lines?_written hu hnonempty.1 hnonempty.2 hwritten source⟩

end Localization.Xliff
