import Localization.Proofs.Xliff.Decoding
import Localization.Proofs.Xliff.Translation
import Localization.Proofs.Xliff.Value

/-! The key that the unit of an entry is read under. An id that is written as it is comes back as the
value of an attribute, in which tabs are spaces. An id that looks like a digest gives way to a key
that is made anew from source and note, and line ends in a note are those between its lines. -/

namespace Localization.Xliff

open Xml LineReading

/-- Text as the value of an attribute is read: tabs are spaces there. -/
def blanked (t : Text) : Text := t.map fun p => if p = .char '\t' then .char ' ' else p

/-- Text without its line ends: LF, with CR before it or without. -/
def unbroken : Text → Text
  | .char '\r' :: .char '\n' :: t => unbroken t
  | .char '\n' :: t => unbroken t
  | p :: t => p :: unbroken t
  | [] => []

/-- The key that is made anew from the source and the note of a message. -/
def remadeKey (m : Message) : Text :=
  let note := Text.join [.char '\n'] m.comments
  if note.isEmpty then m.text else m.text ++ .char '/' :: unbroken note

/-- The key that the unit of an entry is read under. -/
def returnedKey (e : Text × Json) : Text :=
  match Bundle.message? e.2 with
  | some m =>
    if m.text.isPrefixOf e.1 || isHashed (Entity.encode (blanked e.1)) then remadeKey m
    else blanked e.1
  | none => e.1

/-- A key with a message that can be written and read: neither is empty, and all is legal. -/
structure Legible (key text : List Char) (comments : List (List Char)) : Prop where
  key_nonempty : key ≠ []
  key : ∀ c ∈ key, isLegal c = true
  text_nonempty : text ≠ []
  text : ∀ c ∈ text, isLegal c = true
  comments : ∀ cs ∈ comments, ∀ c ∈ cs, isLegal c = true

def LegibleEntry (e : Text × Json) : Prop :=
  ∃ (key text : List Char) (comments : List (List Char)), e.1 = .ofChars key ∧
    Bundle.message? e.2 = some ⟨.ofChars text, comments.map .ofChars⟩ ∧ Legible key text comments

/-- A bundle as a document can hold it, under a name that is not empty and needs no escape: one or
more entries. -/
structure LegibleBundle (b : Text × Bundle) : Prop where
  named : ∃ name, b.1 = Text.ofChars name ∧ name ≠ [] ∧ Attribute.IsVerbatim name
  nonempty : b.2 ≠ []
  legible : ∀ e ∈ b.2, LegibleEntry e

namespace Translation

/-- The message that an entry comes back as: the key that its unit is read under, with what the
unit is translated to. -/
def returned (t : Translation) (f : List Char → List Char) (name : Text) (e : Text × Json) :
    Text × Text :=
  (returnedKey e, t.message f name e.1)

/-- A file that is read has the name of a bundle and the language added for it, and the messages
that the entries of the bundle come back as, in the order of their keys. Of units that are read
under one key the last one counts. -/
structure Yields (t : Translation) (f : List Char → List Char) (b : Text × Bundle)
    (file : LocalizedFile) : Prop where
  name : file.name = b.1
  language : ∃ cs, t.language? f b.1 = some cs ∧ file.language = Text.lower (.ofChars cs)
  messages : ∃ order : Bundle, order.Perm b.2 ∧
    file.messages.Perm (Fields.ofList (order.map (t.returned f b.1)))
  ordered : file.messages.Pairwise fun a b => Text.le16 a.1 b.1 = true

end Translation

/-! Notes. -/

section Unbroken

/-- LF as a part of text. -/
def lineFeed : CodePoint := .char '\n'

theorem unbroken_return (t : Text) : unbroken (.char '\r' :: .char '\n' :: t) = unbroken t := rfl

theorem unbroken_feed (t : Text) : unbroken (.char '\n' :: t) = unbroken t := rfl

/-- What is not part of a line end stays. -/
theorem unbroken_cons {p : CodePoint} {t : Text}
    (hreturn : ∀ u, p = .char '\r' → t = .char '\n' :: u → False) (hfeed : p = .char '\n' → False) :
    unbroken (p :: t) = p :: unbroken t := by
  rw [unbroken]
  · exact hreturn
  · exact hfeed

theorem lineFeed_not_mem_unbroken (t : Text) : lineFeed ∉ unbroken t := by
  induction t using unbroken.induct with
  | case1 t ih => rwa [unbroken_return]
  | case2 t ih => rwa [unbroken_feed]
  | case3 p t hcr hp ih =>
    rw [unbroken_cons hcr hp]
    simp only [List.mem_cons, not_or]
    exact ⟨fun h => hp h.symm, ih⟩
  | case4 => exact List.not_mem_nil

theorem unbroken_eq_self {t : Text} (h : lineFeed ∉ t) : unbroken t = t := by
  induction t using unbroken.induct with
  | case1 t => simp [lineFeed] at h
  | case2 t => simp [lineFeed] at h
  | case3 p t hcr hp ih => rw [unbroken_cons hcr hp, ih (List.not_mem_of_not_mem_cons h)]
  | case4 => rfl

/-- A line end ends what was read before it, so the text after it is read by itself. -/
theorem unbroken_append_cons (a b : Text) :
    unbroken (a ++ lineFeed :: b) = unbroken (a ++ [lineFeed]) ++ unbroken b := by
  induction a using unbroken.induct with
  | case1 a ih => exact ih
  | case2 a ih => exact ih
  | case3 p a hcr hp ih =>
    have hne : ∀ more t, p = .char '\r' → a ++ lineFeed :: more = .char '\n' :: t → a = [] := by
      intro more t hr ht
      cases a with
      | nil => rfl
      | cons q a => exact absurd (by rw [(List.cons.inj ht).1]) (hcr a hr)
    by_cases hreturn : p = .char '\r' ∧ a = []
    · obtain ⟨rfl, rfl⟩ := hreturn
      rfl
    · have hstep : ∀ more, unbroken (p :: (a ++ lineFeed :: more)) =
          p :: unbroken (a ++ lineFeed :: more) := fun more =>
        unbroken_cons (fun t hr ht => hreturn ⟨hr, hne more t hr ht⟩) hp
      rw [List.cons_append, hstep, ih, List.cons_append, hstep, List.cons_append]
  | case4 => rfl

theorem length_unbroken_append (a b : Text) :
    (unbroken (a ++ b)).length ≤ a.length + (unbroken b).length := by
  induction a using unbroken.induct with
  | case1 a ih =>
    simp only [List.cons_append, unbroken_return, List.length_cons]
    omega
  | case2 a ih =>
    simp only [List.cons_append, unbroken_feed, List.length_cons]
    omega
  | case3 p a hcr hp ih =>
    rw [List.cons_append, List.length_cons]
    by_cases hreturn : ∃ t, p = .char '\r' ∧ a ++ b = .char '\n' :: t
    · obtain ⟨t, rfl, ht⟩ := hreturn
      rw [ht, unbroken_feed] at ih
      rw [ht, unbroken_return]
      omega
    · rw [unbroken_cons (fun t hr ht => hreturn ⟨t, hr, ht⟩) hp, List.length_cons]
      omega
  | case4 => simp

/-- A line without its end is what it was exactly if the end is all that is left out. -/
theorem unbroken_line_iff {c : Text} : unbroken (c ++ [lineFeed]) = c ↔
    lineFeed ∉ c ∧ c.getLast? ≠ some (.char '\r') := by
  have hend : unbroken [lineFeed] = [] := rfl
  constructor
  · intro h
    refine ⟨h ▸ lineFeed_not_mem_unbroken _, fun hlast => ?_⟩
    obtain ⟨a, rfl⟩ := List.getLast?_eq_some_iff.mp hlast
    have hlen := length_unbroken_append a ([.char '\r'] ++ [lineFeed])
    have hboth : unbroken ([.char '\r'] ++ [lineFeed]) = [] := rfl
    rw [← List.append_assoc, h, hboth] at hlen
    simp only [List.length_append, List.length_cons, List.length_nil] at hlen
    omega
  · rintro ⟨hlf, hcr⟩
    induction c with
    | nil => rfl
    | cons p c ih =>
      simp only [List.mem_cons, not_or] at hlf
      have hlast : c.getLast? ≠ some (.char '\r') := by
        intro h
        rw [List.getLast?_cons, h] at hcr
        exact hcr rfl
      rw [List.cons_append, unbroken_cons ?_ fun hp => hlf.1 hp.symm, ih hlf.2 hlast]
      intro t hr ht
      cases c with
      | nil => exact hcr (by rw [hr]; rfl)
      | cons q c => exact hlf.2 (by rw [(List.cons.inj ht).1]; simp [lineFeed])

/-- Lines joined with LF are joined as they are, without line ends, exactly if none of them holds LF
and none before the last ends with CR. -/
theorem unbroken_join_iff {cs : List Text} :
    unbroken (Text.join [lineFeed] cs) = cs.flatten ↔
      (∀ c ∈ cs, lineFeed ∉ c) ∧ ∀ c ∈ cs.dropLast, c.getLast? ≠ some (.char '\r') := by
  have hlen : ∀ cs : List Text,
      (unbroken (Text.join [lineFeed] cs)).length ≤ cs.flatten.length := by
    intro cs
    induction cs with
    | nil => exact Nat.zero_le _
    | cons c cs ih =>
      cases cs with
      | nil => simpa [Text.join, unbroken] using length_unbroken_append c []
      | cons d cs =>
        have hline := length_unbroken_append c ([lineFeed] ++ Text.join [lineFeed] (d :: cs))
        have hafter : unbroken ([lineFeed] ++ Text.join [lineFeed] (d :: cs)) =
            unbroken (Text.join [lineFeed] (d :: cs)) := rfl
        rw [Text.join, List.append_assoc, List.flatten_cons, List.length_append]
        · rw [hafter] at hline
          omega
        · simp
  induction cs with
  | nil => simp [Text.join, unbroken]
  | cons c cs ih =>
    cases cs with
    | nil =>
      simp only [Text.join, List.flatten_cons, List.flatten_nil, List.append_nil,
        List.mem_singleton, forall_eq, List.dropLast_singleton, List.not_mem_nil,
        false_implies, implies_true, and_true]
      exact ⟨fun h => h ▸ lineFeed_not_mem_unbroken c, unbroken_eq_self⟩
    | cons d cs =>
      have hsplit : unbroken (Text.join [lineFeed] (c :: d :: cs)) =
          unbroken (c ++ [lineFeed]) ++ unbroken (Text.join [lineFeed] (d :: cs)) := by
        rw [Text.join, List.append_assoc, List.singleton_append, unbroken_append_cons]
        simp
      have hfirst : (unbroken (c ++ [lineFeed])).length ≤ c.length :=
        length_unbroken_append c [lineFeed]
      have hrest := hlen (d :: cs)
      have hparts : unbroken (c ++ [lineFeed]) ++ unbroken (Text.join [lineFeed] (d :: cs)) =
          c ++ (d :: cs).flatten ↔ unbroken (c ++ [lineFeed]) = c ∧
            unbroken (Text.join [lineFeed] (d :: cs)) = (d :: cs).flatten := by
        refine ⟨fun h => ?_, fun h => by rw [h.1, h.2]⟩
        have htotal := congrArg List.length h
        simp only [List.length_append] at htotal
        exact List.append_inj h (by omega)
      rw [hsplit, List.flatten_cons, hparts]
      refine (and_congr unbroken_line_iff ih).trans ?_
      simp only [List.mem_cons, forall_eq_or_imp, List.dropLast_cons_cons]
      tauto

end Unbroken

theorem join_eq_nil_iff {sep : Text} (hsep : sep ≠ []) {ts : List Text} :
    Text.join sep ts = [] ↔ ts = [] ∨ ts = [[]] := by
  cases ts with
  | nil => simp [Text.join]
  | cons t ts =>
    cases ts with
    | nil => simp [Text.join]
    | cons u ts =>
      rw [Text.join]
      · simp [hsep]
      · simp

/-- The key that is made anew is the key of the message, except that line ends in comments are lost,
and a single empty comment. -/
theorem remadeKey_eq_key_iff {m : Message} : remadeKey m = m.key ↔ m.comments ≠ [[]] ∧
    (∀ c ∈ m.comments, lineFeed ∉ c) ∧
      ∀ c ∈ m.comments.dropLast, c.getLast? ≠ some (.char '\r') := by
  have hnote : Text.join [lineFeed] m.comments = [] ↔ m.comments = [] ∨ m.comments = [[]] :=
    join_eq_nil_iff (by simp)
  have hsep : [CodePoint.char '\n'] = [lineFeed] := rfl
  rw [remadeKey, Message.key, hsep]
  by_cases hnone : m.comments = []
  · simp [hnone, Text.join]
  · by_cases hempty : m.comments = [[]]
    · simp [hempty, Text.join]
    · have hne : (Text.join [lineFeed] m.comments).isEmpty = false := by
        rw [List.isEmpty_eq_false_iff, ne_eq, hnote]
        simp [hnone, hempty]
      have hcomments : m.comments.isEmpty = false := by simpa using hnone
      simp only [hne, hcomments, Bool.false_eq_true, if_false, List.append_cancel_left_eq,
        List.cons.injEq, true_and, unbroken_join_iff, ne_eq, hempty, not_false_eq_true]

/-! Text that is written with characters. -/

theorem blanked_ofChars (cs : List Char) : blanked (.ofChars cs) = .ofChars (cs.map blankedChar) := by
  rw [blanked, Text.ofChars, Text.ofChars, List.map_map, List.map_map]
  refine List.map_congr_left fun c _ => ?_
  by_cases hc : c = '\t'
  · simp [hc, blankedChar]
  · simp [hc, blankedChar]

theorem unbroken_ofChars (cs : List Char) :
    unbroken (.ofChars cs) = .ofChars (withoutLineEnds cs) := by
  induction cs using withoutLineEnds.induct with
  | case1 => rfl
  | case2 cs ih => exact ih
  | case3 cs ih => exact ih
  | case4 c cs hcr hlf ih =>
    have hreturn : ∀ u, CodePoint.char c = .char '\r' → Text.ofChars cs = .char '\n' :: u → False := by
      intro t hr ht
      cases cs with
      | nil => cases ht
      | cons d cs =>
        obtain ⟨hd, -⟩ := List.cons.inj ht
        exact hcr cs (CodePoint.char.inj hr) (by rw [CodePoint.char.inj hd])
    rw [withoutLineEnds, Text.ofChars_cons, Text.ofChars_cons,
      unbroken_cons hreturn fun hc => hlf (CodePoint.char.inj hc), ih]
    · exact hcr
    · exact hlf

theorem join_ofChars (newline l : List Char) (ls : List (List Char)) :
    Text.join (.ofChars newline) ((l :: ls).map .ofChars) =
      Text.ofChars (l ++ lines newline ls) := by
  induction ls generalizing l with
  | nil => simp [Text.join, lines]
  | cons m ls ih =>
    have hrest := ih m
    rw [List.map_cons] at hrest
    rw [List.map_cons, List.map_cons, Text.join, hrest]
    · simp [lines]
    · simp

/-- The characters of a note as they are read. -/
def noteText : List (List Char) → List Char
  | [] => []
  | c :: cs => c ++ lines ['\n'] cs

theorem join_noteText (comments : List (List Char)) :
    Text.join [.char '\n'] (comments.map .ofChars) = .ofChars (noteText comments) := by
  cases comments with
  | nil => rfl
  | cons c cs => exact join_ofChars ['\n'] c cs

theorem remadeKey_ofChars (text : List Char) (comments : List (List Char)) :
    remadeKey ⟨.ofChars text, comments.map .ofChars⟩ =
      .ofChars (if (noteText comments).isEmpty then text
        else text ++ '/' :: withoutLineEnds (noteText comments)) := by
  have hempty : (Text.ofChars (noteText comments)).isEmpty = (noteText comments).isEmpty := by
    rw [Text.ofChars, List.isEmpty_map]
  simp only [remadeKey, join_noteText, hempty, unbroken_ofChars]
  split <;> simp

/-! Entries that a document can carry are read under their keys. -/

theorem Portable.legible {text : List Char} {comments : List (List Char)}
    (h : Portable text comments) :
    ∃ key, Message.key ⟨.ofChars text, comments.map .ofChars⟩ = .ofChars key ∧
      Legible key text comments := by
  have hcomments : ∀ cs ∈ comments, ∀ c ∈ cs, isLegal c = true :=
    fun cs hcs c hc => ((h.comments cs hcs).2 c hc).1
  by_cases hnone : comments = []
  · exact ⟨text, by simp [Message.key, hnone], h.nonempty, h.legal, h.nonempty, h.legal, hcomments⟩
  · refine ⟨text ++ '/' :: comments.flatten, ?_, by simp, ?_, h.nonempty, h.legal, hcomments⟩
    · have hflat : (comments.map Text.ofChars).flatten =
          Text.ofChars comments.flatten :=
        List.map_flatten.symm
      simp [Message.key, hnone, hflat]
    · intro c hc
      rcases List.mem_append.mp hc with hc | hc
      · exact h.legal c hc
      · rcases List.mem_cons.mp hc with rfl | hc
        · decide
        · obtain ⟨cs, hcs, hc⟩ := List.mem_flatten.mp hc
          exact hcomments cs hcs c hc

/-- An entry with the key of its message is read under the key that is made anew. -/
theorem returnedKey_key {v : Json} {m : Message} (h : Bundle.message? v = some m) :
    returnedKey (m.key, v) = remadeKey m := by
  have hstarts : m.text.isPrefixOf m.key = true := by
    rw [List.isPrefixOf_iff_prefix, Message.key]
    split
    · exact List.prefix_refl _
    · exact List.prefix_append _ _
  simp only [returnedKey, h, hstarts, Bool.true_or, if_true]

theorem Portable.remadeKey_eq {text : List Char} {comments : List (List Char)}
    (h : Portable text comments) : remadeKey ⟨.ofChars text, comments.map .ofChars⟩ =
      Message.key ⟨.ofChars text, comments.map .ofChars⟩ := by
  have hline : ∀ c ∈ comments.map Text.ofChars, ∀ d, d = '\n' ∨ d = '\r' → .char d ∉ c := by
    intro c hc d hd hmem
    obtain ⟨cs, hcs, rfl⟩ := List.mem_map.mp hc
    obtain ⟨e, he, hed⟩ := List.mem_map.mp hmem
    obtain rfl := CodePoint.char.inj hed
    have hplain := (h.comments cs hcs).2 e he
    rcases hd with rfl | rfl
    · exact hplain.2.2 rfl
    · exact hplain.2.1 rfl
  refine remadeKey_eq_key_iff.mpr ⟨fun hone => ?_, fun c hc => hline c hc _ (.inl rfl),
    fun c hc hlast => hline c (List.dropLast_subset _ hc) _ (.inr rfl) (List.mem_of_getLast? hlast)⟩
  obtain ⟨cs, rfl, hcs⟩ : ∃ cs, comments = [cs] ∧ Text.ofChars cs = [] := by
    simpa [List.map_eq_singleton_iff] using hone
  exact (h.comments cs (by simp)).1 (by simpa [Text.ofChars] using hcs)

theorem Carried.legible {e : Text × Json} (h : Carried e) :
    LegibleEntry e ∧ returnedKey e = e.1 := by
  obtain ⟨text, comments, hmessage, hkey, hportable⟩ := h
  obtain ⟨key, hchars, hlegible⟩ := hportable.legible
  refine ⟨⟨key, text, comments, hkey.trans hchars, hmessage, hlegible⟩, ?_⟩
  have hreturned := returnedKey_key hmessage
  rw [← hkey, hportable.remadeKey_eq, ← hkey] at hreturned
  exact hreturned

theorem CarriedBundle.legible {b : Text × Bundle} (h : CarriedBundle b) : LegibleBundle b :=
  ⟨h.named, h.nonempty, fun e he => (h.carried e he).legible.1⟩

/-! The messages of a file that is read. -/

namespace Translation.Yields

variable {t : Translation} {f : List Char → List Char} {b : Text × Bundle} {file : LocalizedFile}

theorem nodup_keys (h : t.Yields f b file) : (Fields.keys file.messages).Nodup := by
  obtain ⟨order, -, hmessages⟩ := h.messages
  exact (hmessages.map _).nodup_iff.mpr (Fields.nodup_keys_ofList _)

/-- The keys of a file are those that the units of its bundle are read under. -/
theorem mem_keys_iff (h : t.Yields f b file) {k : Text} :
    k ∈ Fields.keys file.messages ↔ ∃ e ∈ b.2, returnedKey e = k := by
  obtain ⟨order, hperm, hmessages⟩ := h.messages
  have hkeys : (Fields.keys file.messages).Perm
      (Fields.keys (Fields.ofList (order.map (t.returned f b.1)))) := hmessages.map _
  have hmap : Fields.keys (order.map (t.returned f b.1)) = order.map returnedKey := by
    rw [Fields.keys, List.map_map]
    rfl
  rw [hkeys.mem_iff, Fields.keys_ofList, List.mem_eraseDups, hmap, List.mem_map]
  simp only [hperm.mem_iff]

/-- A key that the unit of only one entry is read under has the translation of that entry. -/
theorem get?_returned (h : t.Yields f b file) {e : Text × Json} (he : e ∈ b.2)
    (honly : ∀ e' ∈ b.2, returnedKey e' = returnedKey e → e' = e) :
    Fields.get? (returnedKey e) file.messages = some (t.message f b.1 e.1) := by
  obtain ⟨order, hperm, hmessages⟩ := h.messages
  have hfound : Fields.get? (returnedKey e) (Fields.ofList (order.map (t.returned f b.1))) =
      some (t.message f b.1 e.1) := by
    rw [Fields.get?_ofList]
    cases hfind : (order.map (t.returned f b.1)).reverse.find? fun r => r.1 = returnedKey e with
    | none =>
      have hin : t.returned f b.1 e ∈ (order.map (t.returned f b.1)).reverse :=
        List.mem_reverse.mpr (List.mem_map_of_mem (hperm.mem_iff.mpr he))
      simpa [returned] using List.find?_eq_none.mp hfind _ hin
    | some r =>
      have hin := List.mem_reverse.mp (List.mem_of_find?_eq_some hfind)
      obtain ⟨e', he', rfl⟩ := List.mem_map.mp hin
      have hsome := List.find?_some hfind
      have hkey : returnedKey e' = returnedKey e := of_decide_eq_true hsome
      obtain rfl := honly e' (hperm.mem_iff.mp he') hkey
      rfl
  exact Fields.get?_of_mem h.nodup_keys (hmessages.mem_iff.mpr (Fields.mem_of_get? hfound))

theorem returns (h : t.Yields f b file) (hb : CarriedBundle b) : t.Returns f b file := by
  refine ⟨h.name, h.language, ?_, h.ordered⟩
  obtain ⟨order, hperm, hmessages⟩ := h.messages
  have hmap : order.map (t.returned f b.1) = order.map fun e => (e.1, t.message f b.1 e.1) :=
    List.map_congr_left fun e he => by
      rw [returned, (hb.carried e (hperm.mem_iff.mp he)).legible.2]
  have hkeys : (Fields.keys (order.map (t.returned f b.1))).Nodup := by
    have horder : (Fields.keys order).Nodup := (hperm.map _).nodup_iff.mpr hb.distinct
    rw [hmap]
    simpa [Fields.keys, Function.comp_def] using horder
  rw [Fields.ofList_eq_self hkeys, hmap] at hmessages
  exact hmessages.trans (hperm.map _)

end Translation.Yields

end Localization.Xliff
