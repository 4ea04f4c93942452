import Localization.Proofs.Xliff.Messages

/-! What reading a document comes to. It goes through the files of the document, and through the
translated units of each, in order; the first of these nodes that lacks something decides that the
document is refused, and why. A document that is not refused has an entry for every file with
units. -/

namespace Localization.Xliff

open Xml

/-! The nodes, and what may be missing from them. -/

/-- A node that reading comes to: a file, or a unit with a target. -/
inductive Visit where
  | file (x : Element)
  | unit (x : Element)

def isTranslated (unit : Element) : Bool := (unit.child? "target").isSome

/-- The nodes of one file: the file, then its translated units in order. -/
def visitsIn (x : Element) : List Visit := .file x :: ((unitsOf x).filter isTranslated).map .unit

/-- The nodes of files in the order in which reading comes to them. -/
def visits (files : List Element) : List Visit := files.flatMap visitsIn

/-- An element has no attribute of a name, or an empty one. -/
def Lacks (x : Element) (name : String) : Prop := ∀ cs, x.attribute? name = some cs → cs = []

/-- An id has the mark and the length of a digest. -/
def IsDigest (id : List Char) : Prop := "++CODE++".toList <+: id ∧ id.length = 72

/-- What a node lacks. Of several things it is the one that is looked for first. -/
inductive Visit.Offends : Visit → ReadError → Prop
  | original {x : Element} (missing : Lacks x "original") : Offends (.file x) .missingOriginal
  | language {x : Element} (named : ¬ Lacks x "original") (missing : Lacks x "target-language") :
    Offends (.file x) .missingLanguage
  | target {x target : Element} (found : x.child? "target" = some target)
    (empty : target.chars = []) : Offends (.unit x) .missingTarget
  | id {x target : Element} (found : x.child? "target" = some target) (filled : target.chars ≠ [])
    (missing : x.attribute? "id" = none) : Offends (.unit x) .missingId
  | source {x target : Element} {id : List Char} (found : x.child? "target" = some target)
    (filled : target.chars ≠ []) (named : x.attribute? "id" = some id) (digest : IsDigest id)
    (empty : charsIn x "source" = []) : Offends (.unit x) .missingSource

/-- None of the nodes lacks anything. -/
def Sound (nodes : List Visit) : Prop := ∀ v ∈ nodes, ∀ e, ¬ v.Offends e

/-- The first of the nodes that lacks something lacks `e`. -/
def FirstLack (nodes : List Visit) (e : ReadError) : Prop :=
  ∃ before v after, nodes = before ++ v :: after ∧ Sound before ∧ v.Offends e

/-! What is read of nodes that lack nothing. -/

/-- The key of a unit: its id, or the text and the note that its digest stands for. -/
inductive KeyOf (x : Element) : Text → Prop
  | literal {id : List Char} (named : x.attribute? "id" = some id) (literal : ¬ IsDigest id) :
    KeyOf x (Entity.decode (.ofChars id))
  | text {id : List Char} (named : x.attribute? "id" = some id) (digest : IsDigest id)
    (filled : charsIn x "source" ≠ []) (bare : charsIn x "note" = []) :
    KeyOf x (.ofChars (charsIn x "source"))
  | noted {id : List Char} (named : x.attribute? "id" = some id) (digest : IsDigest id)
    (filled : charsIn x "source" ≠ []) (noted : charsIn x "note" ≠ []) :
    KeyOf x (.ofChars (charsIn x "source" ++ '/' :: withoutLineEnds (charsIn x "note")))

/-- What a translated unit says: its key, and the text of its first target. -/
def Says (x : Element) (e : Text × Text) : Prop :=
  KeyOf x e.1 ∧ ∃ target, x.child? "target" = some target ∧ target.chars ≠ [] ∧
    e.2 = Entity.decode (.ofChars target.chars)

/-- A file is read as its name, its language, and what its translated units say: a key with the text
of the last unit that has it, in the order of the keys. -/
structure EntryOf (x : Element) (f : LocalizedFile) : Prop where
  name : ∃ cs, x.attribute? "original" = some cs ∧ cs ≠ [] ∧ f.name = .ofChars cs
  language : ∃ cs, x.attribute? "target-language" = some cs ∧ cs ≠ [] ∧
    f.language = Text.lower (.ofChars cs)
  messages : ∃ said, List.Forall₂ Says ((unitsOf x).filter isTranslated) said ∧
    ∀ e, e ∈ f.messages ↔ Fields.IsLast said e
  distinct : f.messages.keys.Nodup
  sorted : f.messages.Pairwise fun a b => Text.le16 a.1 b.1 = true

def hasUnits (x : Element) : Bool := !(unitsOf x).isEmpty

/-! The first of the nodes that lacks something. -/

theorem sound_nil : Sound [] := by simp [Sound]

theorem sound_cons {v : Visit} {nodes : List Visit} :
    Sound (v :: nodes) ↔ (∀ e, ¬ v.Offends e) ∧ Sound nodes := List.forall_mem_cons

theorem sound_append {nodes more : List Visit} :
    Sound (nodes ++ more) ↔ Sound nodes ∧ Sound more := List.forall_mem_append

theorem not_firstLack_nil (e : ReadError) : ¬ FirstLack [] e := by
  rintro ⟨before, v, after, h, -⟩
  simp at h

theorem firstLack_cons {v : Visit} {nodes : List Visit} {e : ReadError} :
    FirstLack (v :: nodes) e ↔ v.Offends e ∨ (∀ d, ¬ v.Offends d) ∧ FirstLack nodes e := by
  constructor
  · rintro ⟨before, w, after, hnodes, hbefore, hw⟩
    cases before with
    | nil =>
      obtain ⟨rfl, rfl⟩ := List.cons.inj hnodes
      exact .inl hw
    | cons u before =>
      obtain ⟨rfl, rfl⟩ := List.cons.inj hnodes
      rw [sound_cons] at hbefore
      exact .inr ⟨hbefore.1, before, w, after, rfl, hbefore.2, hw⟩
  · rintro (hv | ⟨hv, before, w, after, rfl, hbefore, hw⟩)
    · exact ⟨[], v, nodes, rfl, sound_nil, hv⟩
    · exact ⟨v :: before, w, after, rfl, sound_cons.mpr ⟨hv, hbefore⟩, hw⟩

theorem firstLack_append {nodes more : List Visit} {e : ReadError} :
    FirstLack (nodes ++ more) e ↔ FirstLack nodes e ∨ Sound nodes ∧ FirstLack more e := by
  induction nodes with
  | nil => simp [not_firstLack_nil, sound_nil]
  | cons v nodes ih =>
    rw [List.cons_append, firstLack_cons, firstLack_cons, ih, sound_cons]
    tauto

/-- Nodes lack something exactly if there is a first one that does. -/
theorem exists_firstLack_iff {nodes : List Visit} : (∃ e, FirstLack nodes e) ↔ ¬ Sound nodes := by
  constructor
  · rintro ⟨e, before, v, after, rfl, -, hv⟩ hsound
    exact hsound v (by simp) e hv
  · intro h
    induction nodes with
    | nil => exact absurd sound_nil h
    | cons v nodes ih =>
      by_cases hv : ∃ e, v.Offends e
      · obtain ⟨e, he⟩ := hv
        exact ⟨e, firstLack_cons.mpr (.inl he)⟩
      · rw [not_exists] at hv
        obtain ⟨e, he⟩ := ih fun hsound => h (sound_cons.mpr ⟨hv, hsound⟩)
        exact ⟨e, firstLack_cons.mpr (.inr ⟨hv, he⟩)⟩

/-! Units. -/

theorem isHashed_iff {id : List Char} : isHashed (.ofChars id) = true ↔ IsDigest id := by
  have hprefix : hashMark <+: Text.ofChars id ↔ "++CODE++".toList <+: id :=
    List.prefix_map_iff_of_injective fun _ _ => CodePoint.char.inj
  have hlength : (Text.ofChars id).length = id.length := List.length_map _
  rw [isHashed, Bool.and_eq_true, List.isPrefixOf_iff_prefix, hprefix, beq_iff_eq, hlength]
  rfl

theorem isTranslated_of_child {x target : Element} (h : x.child? "target" = some target) :
    isTranslated x = true := by
  rw [isTranslated, h]
  rfl

theorem unitKey_eq_ok_iff {x : Element} {k : Text} : unitKey x = .ok k ↔ KeyOf x k := by
  constructor
  · intro h
    unfold unitKey at h
    split at h
    · cases h
    · rename_i id hid
      split at h
      · rename_i hhashed
        obtain rfl := Except.ok.inj h
        rw [Bool.not_eq_true', ← Bool.not_eq_true, isHashed_iff] at hhashed
        exact .literal hid hhashed
      · rename_i hhashed
        rw [Bool.not_eq_true, Bool.not_eq_false', isHashed_iff] at hhashed
        dsimp only at h
        split at h
        · cases h
        · rename_i hsource
          obtain rfl := Except.ok.inj h
          rw [List.isEmpty_iff] at hsource
          split
          · rename_i hnote
            exact .text hid hhashed hsource (List.isEmpty_iff.mp hnote)
          · rename_i hnote
            exact .noted hid hhashed hsource (by simpa using hnote)
  · intro h
    cases h with
    | literal hid hliteral =>
      rw [← isHashed_iff, Bool.not_eq_true] at hliteral
      simp [unitKey, hid, hliteral]
    | text hid hdigest hsource hnote =>
      simp [unitKey, hid, isHashed_iff.mpr hdigest, hsource, hnote]
    | noted hid hdigest hsource hnote =>
      simp [unitKey, hid, isHashed_iff.mpr hdigest, hsource, hnote]

/-- The key of a unit cannot be made if there is no id, or no text that the digest stands for. -/
theorem unitKey_eq_error_iff {x : Element} {e : ReadError} :
    unitKey x = .error e ↔ x.attribute? "id" = none ∧ e = .missingId ∨
      (∃ id, x.attribute? "id" = some id ∧ IsDigest id) ∧ charsIn x "source" = [] ∧
        e = .missingSource := by
  unfold unitKey
  cases hid : x.attribute? "id" with
  | none => simp [eq_comm (a := e)]
  | some id =>
    by_cases hdigest : IsDigest id
    · by_cases hsource : charsIn x "source" = []
      · simp [isHashed_iff.mpr hdigest, hdigest, hsource, eq_comm (a := e)]
      · simp [isHashed_iff.mpr hdigest, hsource]
    · have hhashed : isHashed (.ofChars id) = false := by
        rwa [← Bool.not_eq_true, isHashed_iff]
      simp [hhashed, hdigest]

/-- Reading of a unit fails exactly if the unit lacks something. -/
theorem unitMessage_eq_error_iff {x : Element} {e : ReadError} :
    unitMessage x = .error e ↔ (Visit.unit x).Offends e := by
  constructor
  · intro h
    unfold unitMessage at h
    split at h
    · cases h
    · rename_i target htarget
      split at h
      · rename_i hempty
        obtain rfl := Except.error.inj h
        exact .target htarget (List.isEmpty_iff.mp hempty)
      · rename_i hfilled
        rw [List.isEmpty_iff] at hfilled
        have hkey : unitKey x = .error e := by
          cases hk : unitKey x with
          | error d => simpa [hk, Except.map] using h
          | ok k => simp [hk, Except.map] at h
        obtain ⟨hid, rfl⟩ | ⟨⟨id, hid, hdigest⟩, hsource, rfl⟩ := unitKey_eq_error_iff.mp hkey
        · exact .id htarget hfilled hid
        · exact .source htarget hfilled hid hdigest hsource
  · intro h
    cases h with
    | target hfound hempty => simp [unitMessage, hfound, hempty]
    | id hfound hfilled hid =>
      have hkey : unitKey x = .error .missingId := unitKey_eq_error_iff.mpr (.inl ⟨hid, rfl⟩)
      simp [unitMessage, hfound, hfilled, hkey, Except.map]
    | source hfound hfilled hid hdigest hempty =>
      have hkey : unitKey x = .error .missingSource :=
        unitKey_eq_error_iff.mpr (.inr ⟨⟨_, hid, hdigest⟩, hempty, rfl⟩)
      simp [unitMessage, hfound, hfilled, hkey, Except.map]

theorem unitMessage_eq_some_iff {x : Element} {e : Text × Text} :
    unitMessage x = .ok (some e) ↔ Says x e := by
  obtain ⟨k, v⟩ := e
  unfold unitMessage Says
  cases htarget : x.child? "target" with
  | none => simp
  | some target =>
    by_cases hempty : target.chars = []
    · simp [hempty]
    · simp only [List.isEmpty_iff, hempty, if_false, map_eq_ok_iff, unitKey_eq_ok_iff,
        Option.some.injEq, Prod.mk.injEq]
      constructor
      · rintro ⟨key, hkey, rfl, rfl⟩
        exact ⟨hkey, target, rfl, hempty, rfl⟩
      · rintro ⟨hkey, _, rfl, -, rfl⟩
        exact ⟨k, hkey, rfl, rfl⟩

/-- A unit that lacks nothing says something if it is translated, and nothing otherwise. -/
theorem exists_of_unitMessage {x : Element} {m : Option (Text × Text)}
    (h : unitMessage x = .ok m) :
    (∀ e, ¬ (Visit.unit x).Offends e) ∧
      (isTranslated x = true ∧ (∃ e, m = some e ∧ Says x e) ∨ isTranslated x = false ∧ m = none) := by
  constructor
  · intro e he
    rw [← unitMessage_eq_error_iff, h] at he
    cases he
  · cases m with
    | some e =>
      have hsays := unitMessage_eq_some_iff.mp h
      obtain ⟨-, target, htarget, -⟩ := hsays
      exact .inl ⟨isTranslated_of_child htarget, e, rfl, unitMessage_eq_some_iff.mp h⟩
    | none =>
      refine .inr ⟨?_, rfl⟩
      unfold unitMessage at h
      split at h
      · rename_i hnone
        rw [isTranslated, hnone]
        rfl
      · split at h
        · cases h
        · obtain ⟨k, -, hk⟩ := map_eq_ok_iff.mp h
          cases hk

/-- Units fail with the first translated one that lacks something; the others are passed over. -/
theorem mapM_unitMessage_eq_error_iff {units : List Element} {e : ReadError} :
    units.mapM unitMessage = .error e ↔ FirstLack ((units.filter isTranslated).map .unit) e := by
  induction units with
  | nil => simp [not_firstLack_nil, pure, Except.pure]
  | cons x units ih =>
    rw [List.mapM_cons]
    cases hx : unitMessage x with
    | error d =>
      have hd := unitMessage_eq_error_iff.mp hx
      have htranslated : isTranslated x = true := by
        cases hd with
        | target hfound | id hfound | source hfound => exact isTranslated_of_child hfound
      rw [List.filter_cons_of_pos htranslated, List.map_cons, firstLack_cons,
        ← unitMessage_eq_error_iff, hx]
      show Except.error d = Except.error e ↔ _
      simp only [Except.error.injEq]
      constructor
      · intro h
        exact .inl h
      · rintro (h | ⟨h, -⟩)
        · exact h
        · exact absurd hd (h d)
    | ok m =>
      obtain ⟨hsound, hm⟩ := exists_of_unitMessage hx
      have hrest : FirstLack (((x :: units).filter isTranslated).map .unit) e ↔
          FirstLack ((units.filter isTranslated).map .unit) e := by
        obtain ⟨htranslated, -⟩ | ⟨huntranslated, -⟩ := hm
        · rw [List.filter_cons_of_pos htranslated, List.map_cons, firstLack_cons]
          exact ⟨fun h => (h.resolve_left (hsound e)).2, fun h => .inr ⟨hsound, h⟩⟩
        · rw [List.filter_cons_of_neg (by simp [huntranslated])]
      rw [hrest, ← ih]
      cases hxs : units.mapM unitMessage with
      | error d => rfl
      | ok ms => simp [bind, Except.bind, pure, Except.pure]

theorem messagesOf_eq_error_iff {units : List Element} {e : ReadError} :
    messagesOf units = .error e ↔ FirstLack ((units.filter isTranslated).map .unit) e := by
  rw [← mapM_unitMessage_eq_error_iff, messagesOf]
  cases units.mapM unitMessage <;> simp [Except.map]

/-- Units that lack nothing are read as what the translated ones say, in order. -/
theorem said_of_mapM {units : List Element} {found : List (Option (Text × Text))}
    (h : units.mapM unitMessage = .ok found) :
    Sound ((units.filter isTranslated).map .unit) ∧
      List.Forall₂ Says (units.filter isTranslated) (found.filterMap id) := by
  replace h := mapM_eq_ok_iff.mp h
  induction h with
  | nil => exact ⟨sound_nil, .nil⟩
  | @cons x m units found hx _ ih =>
    obtain ⟨hsound, ⟨htranslated, e, rfl, hsays⟩ | ⟨huntranslated, rfl⟩⟩ :=
      exists_of_unitMessage hx
    · rw [List.filter_cons_of_pos htranslated, List.map_cons, sound_cons]
      exact ⟨⟨hsound, ih.1⟩, .cons hsays ih.2⟩
    · rw [List.filter_cons_of_neg (by simp [huntranslated])]
      exact ih

/-! Files. -/

theorem lacks_iff {x : Element} {name : String} :
    Lacks x name ↔ (x.attribute? name).getD [] = [] := by
  unfold Lacks
  cases x.attribute? name <;> simp

theorem fileOf_unnamed {x : Element} (h : Lacks x "original") :
    fileOf x = .error .missingOriginal := by
  rw [fileOf, lacks_iff.mp h]

theorem exists_attribute {x : Element} {name : String} (h : ¬ Lacks x name) :
    ∃ cs, x.attribute? name = some cs ∧ cs ≠ [] := by
  simpa [Lacks] using h

theorem fileOf_unspoken {x : Element} (hname : ¬ Lacks x "original")
    (h : Lacks x "target-language") : fileOf x = .error .missingLanguage := by
  obtain ⟨name, horiginal, hne⟩ := exists_attribute hname
  obtain ⟨c, cs, rfl⟩ := List.exists_cons_of_ne_nil hne
  rw [fileOf, horiginal, lacks_iff.mp h]
  rfl

theorem fileOf_named {x : Element} {name language : List Char}
    (horiginal : x.attribute? "original" = some name) (hname : name ≠ [])
    (htarget : x.attribute? "target-language" = some language) (hlanguage : language ≠ []) :
    fileOf x = if (unitsOf x).isEmpty then .ok (.ofChars name, none) else
      (messagesOf (unitsOf x)).map fun messages =>
        (.ofChars name, some ⟨.ofChars name, Text.lower (.ofChars language), messages⟩) := by
  obtain ⟨c, name, rfl⟩ := List.exists_cons_of_ne_nil hname
  obtain ⟨d, language, rfl⟩ := List.exists_cons_of_ne_nil hlanguage
  rw [fileOf, horiginal, htarget]
  rfl

theorem offends_file_iff {x : Element} {e : ReadError} :
    (Visit.file x).Offends e ↔ Lacks x "original" ∧ e = .missingOriginal ∨
      ¬ Lacks x "original" ∧ Lacks x "target-language" ∧ e = .missingLanguage := by
  constructor
  · intro h
    cases h with
    | original hmissing => exact .inl ⟨hmissing, rfl⟩
    | language hnamed hmissing => exact .inr ⟨hnamed, hmissing, rfl⟩
  · rintro (⟨hmissing, rfl⟩ | ⟨hnamed, hmissing, rfl⟩)
    · exact .original hmissing
    · exact .language hnamed hmissing

/-- A file fails with the first of its nodes that lacks something. -/
theorem fileOf_eq_error_iff {x : Element} {e : ReadError} :
    fileOf x = .error e ↔ FirstLack (visitsIn x) e := by
  rw [visitsIn, firstLack_cons]
  by_cases hname : Lacks x "original"
  · simp [fileOf_unnamed hname, offends_file_iff, hname, eq_comm]
  by_cases hlanguage : Lacks x "target-language"
  · simp [fileOf_unspoken hname hlanguage, offends_file_iff, hname, hlanguage, eq_comm]
  obtain ⟨name, horiginal, hnameNe⟩ := exists_attribute hname
  obtain ⟨language, htarget, hlanguageNe⟩ := exists_attribute hlanguage
  have hsound : ∀ d, ¬ (Visit.file x).Offends d := by
    simp [offends_file_iff, hname, hlanguage]
  rw [fileOf_named horiginal hnameNe htarget hlanguageNe, ← messagesOf_eq_error_iff]
  split
  · rename_i hempty
    rw [List.isEmpty_iff] at hempty
    have hnone : ¬ messagesOf (unitsOf x) = .error e := by
      rw [messagesOf_eq_error_iff, hempty]
      exact not_firstLack_nil e
    simp [hnone, hsound]
  · cases messagesOf (unitsOf x) <;> simp [Except.map, hsound]

/-- A file of whose nodes none lacks anything is read as an entry if it has units. -/
theorem entry_of_fileOf {x : Element} {name : Text} {f : Option LocalizedFile}
    (h : fileOf x = .ok (name, f)) :
    Sound (visitsIn x) ∧
      (hasUnits x = true ∧ (∃ entry, f = some entry ∧ EntryOf x entry) ∨
        hasUnits x = false ∧ f = none) := by
  have hname : ¬ Lacks x "original" := fun hlacks => by simp [fileOf_unnamed hlacks] at h
  have hlanguage : ¬ Lacks x "target-language" := fun hlacks => by
    simp [fileOf_unspoken hname hlacks] at h
  have hfile : ∀ e, ¬ (Visit.file x).Offends e := by
    simp [offends_file_iff, hname, hlanguage]
  obtain ⟨original, horiginal, hnameNe⟩ := exists_attribute hname
  obtain ⟨language, htarget, hlanguageNe⟩ := exists_attribute hlanguage
  rw [visitsIn, sound_cons]
  rw [fileOf_named horiginal hnameNe htarget hlanguageNe] at h
  split at h
  · rename_i hempty
    obtain ⟨rfl, rfl⟩ := Prod.mk.inj (Except.ok.inj h)
    rw [List.isEmpty_iff] at hempty
    refine ⟨⟨hfile, ?_⟩, .inr ⟨?_, rfl⟩⟩
    · simp [hempty, sound_nil]
    · simp [hasUnits, hempty]
  · rename_i hunits
    obtain ⟨m, hm, hentry⟩ := map_eq_ok_iff.mp h
    obtain ⟨rfl, rfl⟩ := Prod.mk.inj hentry
    obtain ⟨found, hfound, rfl⟩ := map_eq_ok_iff.mp hm
    obtain ⟨hsound, hsays⟩ := said_of_mapM hfound
    refine ⟨⟨hfile, hsound⟩, .inl ⟨by simpa [hasUnits] using hunits, _, rfl, ?_⟩⟩
    refine ⟨⟨original, horiginal, hnameNe, rfl⟩, ⟨language, htarget, hlanguageNe, rfl⟩,
      ⟨_, hsays, fun e => ?_⟩, nodup_keys_messagesOf hm, Text.sortBy16_pairwise _ _⟩
    exact ((Text.sortBy16_perm _ _).mem_iff).trans Fields.mem_ofList_iff

/-! Documents. -/

theorem visits_cons (x : Element) (xs : List Element) :
    visits (x :: xs) = visitsIn x ++ visits xs := List.flatMap_cons

/-- Files are read one by one. -/
theorem filesOf_eq (xs : List Element) :
    (filesOf xs).1 = (xs.mapM fileOf).map fun found => found.filterMap (·.2) := by
  induction xs with
  | nil => rfl
  | cons x xs ih =>
    rw [filesOf, List.mapM_cons]
    split
    · rename_i e hx
      rw [hx]
      rfl
    · rename_i name hx
      dsimp only
      rw [hx, ih]
      cases xs.mapM fileOf <;> rfl
    · rename_i name f hx
      dsimp only
      rw [hx, ih]
      cases xs.mapM fileOf <;> rfl

theorem filesOf_eq_error_iff {xs : List Element} {e : ReadError} :
    (filesOf xs).1 = .error e ↔ FirstLack (visits xs) e := by
  rw [filesOf_eq]
  induction xs with
  | nil => simp [visits, not_firstLack_nil, pure, Except.pure, Except.map]
  | cons x xs ih =>
    rw [List.mapM_cons, visits_cons, firstLack_append, ← fileOf_eq_error_iff, ← ih]
    cases hx : fileOf x with
    | error d =>
      have hunsound : ¬ Sound (visitsIn x) := by
        obtain ⟨before, v, after, hnodes, -, hv⟩ := fileOf_eq_error_iff.mp hx
        exact fun hsound => hsound v (by simp [hnodes]) d hv
      simp [bind, Except.bind, Except.map, hunsound]
    | ok found =>
      have hsound := (entry_of_fileOf hx).1
      cases xs.mapM fileOf <;> simp [bind, Except.bind, pure, Except.pure, Except.map, hsound]

/-- The files that are read are the entries of those with units, in order. -/
theorem entries_of_filesOf {xs : List Element} {files : List LocalizedFile}
    (h : (filesOf xs).1 = .ok files) :
    Sound (visits xs) ∧ List.Forall₂ EntryOf (xs.filter hasUnits) files := by
  rw [filesOf_eq] at h
  obtain ⟨found, hfound, rfl⟩ := map_eq_ok_iff.mp h
  replace hfound := mapM_eq_ok_iff.mp hfound
  clear h
  induction hfound with
  | nil => exact ⟨sound_nil, .nil⟩
  | @cons x r xs found hx _ ih =>
    obtain ⟨name, f⟩ := r
    obtain ⟨hsound, ⟨hunits, entry, rfl, hentry⟩ | ⟨hunits, rfl⟩⟩ := entry_of_fileOf hx
    · rw [List.filter_cons_of_pos hunits, visits_cons, sound_append]
      exact ⟨⟨hsound, ih.1⟩, .cons hentry ih.2⟩
    · rw [List.filter_cons_of_neg (by simp [hunits]), visits_cons, sound_append]
      exact ⟨⟨hsound, ih.1⟩, ih.2⟩

theorem readElement_refused {root : Element}
    (h : root.name ≠ "xliff".toList ∨ root.children "file" = []) :
    (readElement root).1 = .error .missingNodes := by
  have hrefused : (root.name ≠ "xliff".toList || (root.children "file").isEmpty) = true := by
    simpa only [Bool.or_eq_true, decide_eq_true_eq, List.isEmpty_iff] using h
  unfold readElement
  rw [if_pos hrefused]

theorem readElement_eq {root : Element} (hname : root.name = "xliff".toList)
    (hfiles : root.children "file" ≠ []) :
    (readElement root).1 = (filesOf (root.children "file")).1.map sortFiles := by
  rw [readElement]
  simp [hname, hfiles]

theorem not_offends_missingNodes (v : Visit) : ¬ v.Offends .missingNodes := nofun

/-- Whatever tree a document is, it is refused at once if its element has another name or there is
no file in it, and else for what the first node that lacks something lacks. A document in which no
node lacks anything is read as the entries of the files with units, one for each, in the order of
their names; where names do not decide, the order of the document does. -/
theorem readElement_first_lack (root : Element) :
    (∀ document, readDocument (document.dropWhile isMargin) = .ok root →
      read document = readElement root) ∧
    ((readElement root).1 = .error .missingNodes ↔
      root.name ≠ "xliff".toList ∨ root.children "file" = []) ∧
    (root.name = "xliff".toList → root.children "file" ≠ [] →
      (∀ e, (readElement root).1 = .error e ↔ FirstLack (visits (root.children "file")) e) ∧
      ((∃ e, (readElement root).1 = .error e) ↔ ¬ Sound (visits (root.children "file")))) ∧
    ∀ files, (readElement root).1 = .ok files →
      ∃ entries, List.Forall₂ EntryOf ((root.children "file").filter hasUnits) entries ∧
        files.Perm entries ∧
        files.Pairwise (fun a b => Text.nameLe a.name b.name = true) ∧
        ∀ a b, [a, b].Sublist entries → Text.nameLe a.name b.name = true →
          [a, b].Sublist files := by
  refine ⟨fun document h => by rw [read, h], ⟨fun h => ?_, readElement_refused⟩,
    fun hname hfiles => ?_, fun files h => ?_⟩
  · by_contra hno
    rw [not_or, not_not] at hno
    rw [readElement_eq hno.1 hno.2, map_eq_error_iff, filesOf_eq_error_iff] at h
    obtain ⟨-, v, -, -, -, hv⟩ := h
    exact not_offends_missingNodes v hv
  · have hfirst : ∀ e, (readElement root).1 = .error e ↔
        FirstLack (visits (root.children "file")) e := by
      intro e
      rw [readElement_eq hname hfiles, map_eq_error_iff, filesOf_eq_error_iff]
    refine ⟨hfirst, ?_⟩
    simp only [hfirst, exists_firstLack_iff]
  · have hopen : root.name = "xliff".toList ∧ root.children "file" ≠ [] := by
      by_contra hno
      rw [not_and_or, not_not] at hno
      rw [readElement_refused hno] at h
      cases h
    rw [readElement_eq hopen.1 hopen.2] at h
    obtain ⟨entries, hentries, rfl⟩ := map_eq_ok_iff.mp h
    refine ⟨entries, (entries_of_filesOf hentries).2, List.mergeSort_perm _ _,
      sortFiles_pairwise entries, fun a b hsublist hle => ?_⟩
    refine List.pair_sublist_mergeSort (fun a b c hab hbc => ?_) (fun a b => ?_) hle hsublist
    · exact Text.nameLe_trans hab hbc
    · exact Text.nameLe_total _ _

/-- A document in which two units and a file lack something. The file comes after both units. -/
def lackingDocument : List Char :=
  ("<xliff><file original=\"a\" target-language=\"de\"><body><trans-unit/>" ++
    "<trans-unit id=\"k\"><target><b/></target></trans-unit>" ++
    "<trans-unit><target>t</target></trans-unit></body></file><file/></xliff>").toList

/-- The first unit has no target and is passed over; the second one decides, as its target is
empty. -/
theorem readElement_first_lack_target : ∃ root,
    readDocument (lackingDocument.dropWhile isMargin) = .ok root ∧
      root.name = "xliff".toList ∧ root.children "file" ≠ [] ∧
      (read lackingDocument).1 = .error .missingTarget ∧
      FirstLack (visits (root.children "file")) .missingTarget := by
  have hparsed : (readDocument (lackingDocument.dropWhile isMargin)).toOption.any (fun root =>
      root.name = "xliff".toList && !(root.children "file").isEmpty &&
        (readElement root).1 = .error .missingTarget) = true := by
    decide +kernel
  cases hroot : readDocument (lackingDocument.dropWhile isMargin) with
  | error f =>
    rw [hroot] at hparsed
    cases hparsed
  | ok root =>
    obtain ⟨⟨hname, hfiles⟩, hread⟩ : (root.name = "xliff".toList ∧ root.children "file" ≠ []) ∧
        (readElement root).1 = .error .missingTarget := by
      rw [hroot] at hparsed
      simpa [Except.toOption] using hparsed
    obtain ⟨hdocument, -, hfirst, -⟩ := readElement_first_lack root
    refine ⟨root, rfl, hname, hfiles, ?_, ((hfirst hname hfiles).1 _).mp hread⟩
    rw [hdocument lackingDocument hroot]
    exact hread

end Localization.Xliff
