import Localization.Proofs.Xliff.Unit
import Localization.Proofs.Xml.Document

/-! The unit of an entry, read with the target that was added. -/

namespace Localization.Xliff

open Xml Xml.Content LineReading

/-! Lines that are read one by one. -/

section Lines

theorem isLineEnd {f : List Char → List Char} {newline : List Char} (hf : LineReading f newline) :
    IsLineEnd newline := by
  cases hf
  · exact .inl rfl
  · exact .inr rfl
  · exact .inr rfl

variable {f : List Char → List Char} {newline : List Char}

theorem read_noteElement (hf : LineReading f newline) (comments : List (List Char)) :
    f (indent 6 ++ noteElement ['\r', '\n'] comments) =
      indent 6 ++ noteElement newline comments := by
  have hopen : '\r' ∉ indent 6 ++ openingTag "note".toList [] := by decide
  have hclose : '\r' ∉ closingTag "note".toList := by decide
  have hparted : ∀ a, Parted a (closingTag "note".toList) := fun a _ => by decide
  have hinner : f (indent 6 ++ openingTag "note".toList [] ++ noteChars ['\r', '\n'] comments) =
      indent 6 ++ openingTag "note".toList [] ++ noteChars newline comments := by
    cases comments with
    | nil =>
      rw [noteChars, List.append_nil, hf.of_not_mem hopen]
      simp [noteChars]
    | cons c cs =>
      have hfirst : '\r' ∉ indent 6 ++ openingTag "note".toList [] ++ encoded c := by
        rw [List.mem_append, not_or]
        exact ⟨hopen, (not_mem_encoded c).2.1⟩
      have hrest : (cs.map encoded).map f = cs.map encoded := by
        rw [List.map_map]
        exact List.map_congr_left fun d _ => hf.of_not_mem (not_mem_encoded d).2.1
      rw [noteChars, ← List.append_assoc, hf.read_lines, hf.of_not_mem hfirst, hrest]
      simp [noteChars]
  have hsplit : ∀ newline, indent 6 ++ noteElement newline comments =
      indent 6 ++ openingTag "note".toList [] ++ noteChars newline comments ++
        closingTag "note".toList := by
    simp [noteElement]
  rw [hsplit, hsplit, hf.append (hparted _), hinner, hf.of_not_mem hclose]

/-- The lines of a unit are read with the line ends of the reading. -/
theorem read_unitLines (hf : LineReading f newline) {source id : List Char}
    (hsource : '\r' ∉ source) (hid : '\r' ∉ id) (text : List Char) (comments : List (List Char)) :
    (unitLines ['\r', '\n'] source id text comments).map f =
      unitLines newline source id text comments := by
  have hopen : f (indent 4 ++ openingTag "trans-unit".toList [idAttribute id]) =
      indent 4 ++ openingTag "trans-unit".toList [idAttribute id] := by
    refine hf.of_not_mem ?_
    simp [indent, openingTag, Attribute.written, Name.written, idAttribute, verbatim, hid]
  have hclose : f (indent 4 ++ closingTag "trans-unit".toList) =
      indent 4 ++ closingTag "trans-unit".toList := hf.of_not_mem (by decide)
  have hsourceElement : f (indent 6 ++ sourceElement source text) =
      indent 6 ++ sourceElement source text := by
    refine hf.of_not_mem ?_
    have htext := (not_mem_encoded text).2.1
    simp [indent, sourceElement, openingTag, closingTag, Attribute.written, Name.written,
      languageAttribute, verbatim, hsource, htext]
  have hparts : ((unitParts ['\r', '\n'] source text comments).map (indent 6 ++ ·)).map f =
      (unitParts newline source text comments).map (indent 6 ++ ·) := by
    rw [List.map_map, unitParts, unitParts, List.map_cons, List.map_cons]
    congr 1
    split
    · rfl
    · simp only [List.map_cons, List.map_nil, Function.comp_apply, read_noteElement hf]
  rw [unitLines, unitLines, List.map_cons, List.map_append, hopen, hparts, List.map_singleton,
    hclose]

/-- Every line of a unit ends with a tag. -/
theorem parted_unitLines {newline source id text : List Char} {comments : List (List Char)}
    (more : List Char) : ∀ l ∈ unitLines newline source id text comments, Parted l more := by
  have hlast : ∀ l ∈ unitLines newline source id text comments, l.getLast? = some '>' := by
    intro l hl
    simp only [unitLines, unitParts, List.mem_cons, List.mem_append, List.map_cons,
      List.not_mem_nil, or_false] at hl
    have htag : indent 4 ++ openingTag "trans-unit".toList [idAttribute id] =
        indent 4 ++ '<' :: ("trans-unit".toList ++ (idAttribute id).written) ++ ['>'] := by
      simp [openingTag]
    rcases hl with rfl | (rfl | hl) | rfl
    · rw [htag, List.getLast?_concat]
    · simp [sourceElement, closingTag]
    · split at hl
      · cases hl
      · obtain rfl := by simpa using hl
        simp [noteElement, closingTag]
    · simp [closingTag]
  intro l hl hcr
  rw [hlast l hl] at hcr
  cases hcr

/-- The lines of a unit with what was added as its target. -/
def translatedUnit (source id text : List Char) (comments : List (List Char)) :
    Option Addition → List (List Char)
  | none => unitLines ['\r', '\n'] source id text comments
  | some a => (unitLines ['\r', '\n'] source id text comments).modify
      (min a.after (unitParts ['\r', '\n'] source text comments).length) (· ++ a.chars)

theorem into_unitLines (source id text : List Char) (comments : List (List Char))
    (target : Option Addition) :
    Addition.into target ((unitLines ['\r', '\n'] source id text comments).map .ofChars) =
      (translatedUnit source id text comments target).map .ofChars := by
  cases target with
  | none => rfl
  | some a =>
    have hlen : (unitLines ['\r', '\n'] source id text comments).length - 2 =
        (unitParts ['\r', '\n'] source text comments).length := by
      simp [unitLines]
    rw [Addition.into, translatedUnit, List.length_map, hlen]
    exact (map_modify (· ++ Text.ofChars a.chars) (fun l _ => by simp) _).symm

/-- A unit with a target as it is read: the target is among the elements of the unit. -/
theorem read_translatedUnit (hf : LineReading f newline) {source id : List Char}
    (hsource : '\r' ∉ source) (hid : '\r' ∉ id) (text : List Char) (comments : List (List Char))
    (a : Addition) : ∃ k, lines newline ((translatedUnit source id text comments (some a)).map f) =
      newline ++ indent 4 ++ (openingTag "trans-unit".toList [idAttribute id] ++
        ((placed k (f a.chars) ((unitParts newline source text comments).map
          fun p => newline ++ (indent 6 ++ p))).flatten ++ (newline ++ indent 4)) ++
        closingTag "trans-unit".toList) := by
  have hread : (translatedUnit source id text comments (some a)).map f =
      (unitLines newline source id text comments).modify
        (min a.after (unitParts ['\r', '\n'] source text comments).length) (· ++ f a.chars) := by
    rw [translatedUnit, map_modify (· ++ f a.chars), read_unitLines hf hsource hid]
    intro l hl
    exact hf.append (parted_unitLines a.chars l hl)
  have hlen : (unitParts ['\r', '\n'] source text comments).length =
      ((unitParts newline source text comments).map (indent 6 ++ ·)).length := by
    simp only [unitParts, List.length_map, List.length_cons]
    split <;> rfl
  rw [hread, unitLines, lines_modify _ _ (by omega), List.map_map]
  exact ⟨min a.after (unitParts ['\r', '\n'] source text comments).length,
    by simp only [List.append_assoc, Function.comp_def]⟩

end Lines

/-! The elements of a unit. -/

section Notes

variable {newline : List Char}

theorem not_mem_lines (hnewline : IsLineEnd newline) (cs : List (List Char)) :
    '>' ∉ lines newline (cs.map encoded) := by
  have hgt : '>' ∉ newline := by rcases hnewline with rfl | rfl <;> decide
  simp only [lines, List.mem_flatMap, List.mem_map, not_exists, not_and]
  rintro _ ⟨c, -, rfl⟩
  rw [List.mem_append, not_or]
  exact ⟨hgt, (not_mem_encoded c).1⟩

theorem charData_lines (hnewline : IsLineEnd newline) {cs : List (List Char)}
    (h : ∀ c ∈ cs, ∀ x ∈ c, isLegal x = true) :
    CharData (lines newline (cs.map encoded)) (lines ['\n'] cs) := by
  induction cs with
  | nil => exact .nil
  | cons c cs ih =>
    have hrest := ih fun d hd => h d (List.mem_cons_of_mem _ hd)
    have hline := (charData_encoded (h c (by simp))).append hrest (not_mem_encoded c).2.1
      (not_mem_lines hnewline cs)
    rw [lines, List.map_cons, List.flatMap_cons, List.append_assoc, lines, List.flatMap_cons,
      List.append_assoc]
    rcases hnewline with rfl | rfl
    · exact .lineEnd hline
    · exact .plain (by decide) hline

theorem charData_noteChars (hnewline : IsLineEnd newline) {comments : List (List Char)}
    (h : ∀ c ∈ comments, ∀ x ∈ c, isLegal x = true) :
    CharData (noteChars newline comments) (noteText comments) := by
  cases comments with
  | nil => exact .nil
  | cons c cs =>
    have hrest := charData_lines hnewline fun d hd => h d (List.mem_cons_of_mem _ hd)
    exact (charData_encoded (h c (by simp))).append hrest (not_mem_encoded c).2.1
      (not_mem_lines hnewline cs)

end Notes

/-- The elements of a unit say its text and its comments. -/
def IsParts (text : List Char) (comments : List (List Char)) (es : List Element) : Prop :=
  ∃ s ns, es = s :: ns ∧ s.name = "source".toList ∧ s.chars = text ∧
    (ns = [] ∧ comments = [] ∨
      ∃ n, ns = [n] ∧ n.name = "note".toList ∧ n.chars = noteText comments)

section Elements

variable {bs : Bindings} {newline : List Char}

theorem charData_gap (hnewline : IsLineEnd newline) (k : Nat) :
    ∃ cs, CharData (newline ++ indent k) cs := by
  refine charData_blanks fun c hc => ?_
  rcases List.mem_append.mp hc with hc | hc
  · rcases hnewline with rfl | rfl
    · rcases (by simpa using hc : c = '\r' ∨ c = '\n') with rfl | rfl <;> decide
    · obtain rfl : c = '\n' := by simpa using hc
      decide
  · obtain rfl := (List.mem_replicate.mp hc).2
    decide

theorem spaced_line (hnewline : IsLineEnd newline) (k : Nat) {cs : List Char} {e : Element}
    (hcs : cs.head? = some '<') (h : Reads bs cs e) :
    Spaced bs (newline ++ (indent k ++ cs)) e := by
  obtain ⟨blanks, hgap⟩ := charData_gap hnewline k
  exact ⟨newline ++ indent k, blanks, cs, by rw [List.append_assoc], hgap, hcs, h⟩

theorem valid_verbatim {n : Name} (hn : n.isWritten = true) (hbound : Namespace.bound? n = none)
    {value : List Char} (h : Attribute.IsVerbatim value) : (verbatim n value).Valid :=
  ⟨hn, hbound, Attribute.isValue_verbatim h⟩

theorem spaced_parts (hbs : Bindings.Alike Namespace.standard bs) (hnewline : IsLineEnd newline)
    {source value text : List Char} {comments : List (List Char)}
    (hsource : Attribute.IsValue source value) (htext : ∀ c ∈ text, isLegal c = true)
    (hcomments : ∀ cs ∈ comments, ∀ c ∈ cs, isLegal c = true) :
    ∃ es, List.Forall₂ (Spaced bs)
      ((unitParts newline source text comments).map fun p => newline ++ (indent 6 ++ p)) es ∧
      IsParts text comments es := by
  have hvalid : Attribute.Valid ⟨⟨some "xml".toList, "lang".toList⟩, source, value⟩ :=
    ⟨(by decide : Name.isWritten ⟨some "xml".toList, "lang".toList⟩ = true),
      (by decide : Namespace.bound? ⟨some "xml".toList, "lang".toList⟩ = none), hsource⟩
  have hqualified : Gathered.checkQualified bs []
      (Attribute.qualified [⟨⟨some "xml".toList, "lang".toList⟩, source, value⟩]) = .ok () := by
    rw [← Gathered.checkQualified_alike hbs]
    rfl
  obtain ⟨s, hreads, hname, -, hchars⟩ := reads_charData (n := "source".toList) (by decide)
    [⟨⟨some "xml".toList, "lang".toList⟩, source, value⟩] (by simpa using hvalid) (by simp)
    hqualified (charData_encoded htext)
  have hs := spaced_line hnewline 6 rfl hreads
  cases hc : comments.isEmpty with
  | true =>
    refine ⟨[s], ?_, s, [], rfl, hname, hchars, .inl ⟨rfl, by simpa using hc⟩⟩
    rw [unitParts, hc, if_pos rfl]
    exact .cons hs .nil
  | false =>
    obtain ⟨n, hreads, hnname, -, hnchars⟩ := reads_charData (n := "note".toList)
      (by decide) [] (by simp) (by simp) (rfl : Gathered.checkQualified bs [] [] = .ok ())
      (charData_noteChars hnewline hcomments)
    have hn := spaced_line hnewline 6 rfl hreads
    refine ⟨[s, n], ?_, s, [n], rfl, hname, hchars, .inr ⟨n, rfl, hnname, hnchars⟩⟩
    rw [unitParts, hc, if_neg Bool.false_ne_true]
    exact .cons hs (.cons hn .nil)

theorem valid_id {raw value : List Char} (h : Attribute.IsValue raw value) :
    ∀ a ∈ [Attribute.mk ⟨none, "id".toList⟩ raw value], a.Valid := by
  have hwritten : Name.isWritten ⟨none, "id".toList⟩ = true := by decide
  have hunbound : Namespace.bound? ⟨none, "id".toList⟩ = none := by decide
  simpa using ⟨hwritten, hunbound, h⟩

/-- What is added as a target is read as one. -/
theorem spaced_target (hbs : Bindings.Alike Namespace.standard bs) {cs text : List Char}
    (h : targetOf? cs = some text) :
    ∃ e, Spaced bs cs e ∧ e.name = "target".toList ∧ e.chars = text ∧ text ≠ [] := by
  rw [targetOf?] at h
  split at h
  · rename_i e helement
    split at h
    · rename_i htarget
      obtain rfl : e.chars = text := by simpa using h
      simp only [Bool.and_eq_true, decide_eq_true_eq, Bool.not_eq_true', List.isEmpty_eq_false_iff]
        at htarget
      have hgap : ∀ c ∈ cs.takeWhile isBlank, isBlank c = true := fun c hc =>
        List.mem_takeWhile_imp hc
      obtain ⟨blanks, hblanks⟩ := charData_blanks hgap
      have hhead : (cs.dropWhile isBlank).head? = some '<' := by
        unfold element at helement
        split at helement
        · cases helement
        · rename_i htoken
          obtain ⟨more, hmore⟩ := head_of_token htoken rfl
          rw [hmore]
          rfl
        · cases helement
      exact ⟨e, ⟨_, blanks, _, List.takeWhile_append_dropWhile.symm, hblanks, hhead,
        reads_of_element hbs helement⟩, htarget.1, rfl, htarget.2⟩
    · cases h
  · cases h

end Elements

theorem isHashed_or_decode {key text raw value : List Char} (hid : IsId key text raw value)
    {v : Json} {m : Message} (hv : Bundle.message? v = some m) (hm : m.text = .ofChars text) :
    (if isHashed (.ofChars value) then remadeKey m else Entity.decode (.ofChars value)) =
      returnedKey (.ofChars key, v) := by
  have hstarts : m.text.isPrefixOf (Text.ofChars key) = true ↔ text <+: key := by
    rw [hm, List.isPrefixOf_iff_prefix]
    exact List.prefix_map_iff_of_injective fun _ _ => CodePoint.char.inj
  cases hid with
  | digest h _ hhashed => simp only [returnedKey, hv, hstarts.mpr h, hhashed, Bool.true_or, if_true]
  | literal h =>
    have hvalue : Text.ofChars (encoded (key.map blankedChar)) =
        Entity.encode (blanked (.ofChars key)) := by
      rw [blanked_ofChars, encode_ofChars]
    have hno : m.text.isPrefixOf (Text.ofChars key) = false := by
      rw [← Bool.not_eq_true, hstarts]
      exact h
    rw [hvalue, Entity.decode_encode]
    simp only [returnedKey, hv, hno, Bool.false_or]

/-- What is read of a unit: the key that it is read under, with the text of the target among its
elements. -/
theorem unitMessage_eq {e t : Element} {es : List Element} {k : Nat}
    {key text raw value : List Char} {comments : List (List Char)} {v : Json}
    (hattributes : e.attributes = [("id".toList, value)])
    (helements : elementsOf e.content = placed k t es) (hid : IsId key text raw value)
    (hv : Bundle.message? v = some ⟨.ofChars text, comments.map .ofChars⟩) (htext : text ≠ [])
    (htarget : t.name = "target".toList) (htargetChars : t.chars ≠ [])
    (hparts : IsParts text (noted comments) es) :
    unitMessage e = .ok (some (returnedKey (.ofChars key, v),
      Entity.decode (.ofChars t.chars))) := by
  obtain ⟨s, ns, rfl, hname, hchars, hnotes⟩ := hparts
  have hothers : ∀ n ∈ ns, n.name = "note".toList := by
    rcases hnotes with ⟨rfl, -⟩ | ⟨n, rfl, hnote, -⟩
    · simp
    · simpa using hnote
  have htargets : e.children "target" = [t] := by
    rw [children_eq, helements]
    refine filter_placed (by simp [htarget]) fun n hn => ?_
    rcases List.mem_cons.mp hn with rfl | hn
    · simp [hname]
    · simp [hothers n hn]
  have hsource : charsIn e "source" = text := by
    have hchildren : e.children "source" = s :: ns.filter fun n => n.name = "source".toList := by
      rw [children_eq, helements, filter_placed_of_neg _ (by simp [htarget]),
        List.filter_cons_of_pos (by simp [hname])]
    rw [charsIn, Element.child?, hchildren, List.head?_cons, ← hchars]
  have hnote : charsIn e "note" = noteText comments := by
    have hchildren : e.children "note" = ns := by
      rw [children_eq, helements, filter_placed_of_neg _ (by simp [htarget]),
        List.filter_cons_of_neg (by simp [hname]), List.filter_eq_self]
      exact fun n hn => by simp [hothers n hn]
    rw [charsIn, Element.child?, hchildren, ← noteText_noted]
    rcases hnotes with ⟨rfl, hnone⟩ | ⟨n, rfl, -, hnote⟩
    · rw [hnone]
      rfl
    · exact hnote
  have hkey : unitKey e = .ok (returnedKey (.ofChars key, v)) := by
    have hattribute : e.attribute? "id" = some value := by
      rw [Element.attribute?, hattributes]
      rfl
    rw [← isHashed_or_decode hid hv rfl, unitKey, hattribute]
    cases hhashed : isHashed (.ofChars value) with
    | false => simp only [hhashed, Bool.not_false, if_true, Bool.false_eq_true, if_false]
    | true =>
      simp only [hhashed, hsource, hnote, Bool.not_true, Bool.false_eq_true, if_false, if_true,
        List.isEmpty_iff, htext, remadeKey_ofChars]
  rw [unitMessage, Element.child?, htargets, List.head?_cons]
  simp only [List.isEmpty_iff, htargetChars, if_false, hkey, Except.map]

/-- The unit of an entry, with a target that was added, is read under the key of the entry or the
one that is made anew, with the text of the target. -/
theorem spaced_unit {f : List Char → List Char} {newline : List Char} (hf : LineReading f newline)
    {bs : Bindings} (hbs : Bindings.Alike Namespace.standard bs)
    {source key text raw value target : List Char} {comments : List (List Char)} {v : Json}
    {a : Addition} (hsource : Attribute.IsVerbatim source) (hid : IsId key text raw value)
    (hv : Bundle.message? v = some ⟨.ofChars text, comments.map .ofChars⟩)
    (hlegible : Legible key text comments) (htarget : targetOf? (f a.chars) = some target) :
    ∃ e, Spaced bs (lines newline
        ((translatedUnit source raw text (noted comments) (some a)).map f)) e ∧
      e.name = "trans-unit".toList ∧
      unitMessage e = .ok (some (returnedKey (.ofChars key, v),
        Entity.decode (.ofChars target))) := by
  have hnewline : IsLineEnd newline := isLineEnd hf
  have hsourceCr : '\r' ∉ source := fun hcr => (hsource _ hcr).2.2.2.2.2.2 rfl
  have hcomments : ∀ cs ∈ noted comments, ∀ c ∈ cs, isLegal c = true := by
    unfold noted
    split
    · simp
    · exact hlegible.comments
  obtain ⟨k, hk⟩ := read_translatedUnit hf hsourceCr hid.not_mem text (noted comments) a
  obtain ⟨es, hes, hparts⟩ := spaced_parts hbs hnewline
    (Attribute.isValue_verbatim hsource) hlegible.text hcomments
  obtain ⟨t, ht, htname, rfl, htchars⟩ := spaced_target hbs htarget
  obtain ⟨blanks, hgap⟩ := charData_gap hnewline 4
  obtain ⟨e, hreads, hname, hattributes, helements⟩ := reads_spaced (n := "trans-unit".toList)
    (by decide) [⟨⟨none, "id".toList⟩, raw, value⟩] (valid_id (hid.isValue hlegible.key)) (by simp)
    rfl (forall₂_placed (n := k) ht hes) hgap
  refine ⟨e, ?_, hname, unitMessage_eq hattributes helements hid hv hlegible.text_nonempty htname
    htchars hparts⟩
  rw [hk, List.append_assoc]
  exact spaced_line hnewline 4 rfl hreads

end Localization.Xliff
