import Localization.Proofs.Xliff.Held
import Mathlib.Data.List.Nodup

/-! What a writer renders is told by the bundles that it has for each name last; bundles that cannot
be added, and rendering, leave no trace. -/

namespace Localization.Xliff

/-- The bundle that a call adds, under its name. -/
def Call.taken? : Call → Option (Text × Bundle)
  | .add name b =>
    if !b.isEmpty && (b.mapM fun e => TransUnit.ofEntry e.1 e.2).isOk then some (name, b) else none
  | .render => none

/-- The bundles that calls add, in the order of the calls. -/
def taken (calls : List Call) : List (Text × Bundle) := calls.filterMap Call.taken?

/-- The unit of an entry. -/
def unitOf (e : Text × Json) : TransUnit :=
  (TransUnit.ofEntry e.1 e.2).toOption.getD ⟨[], [], none⟩

/-- A bundle with entries, all of which have units. -/
def Addable (b : Bundle) : Prop :=
  b.isEmpty = false ∧ ∀ e ∈ b, TransUnit.ofEntry e.1 e.2 = .ok (unitOf e)

theorem unitOf_eq {e : Text × Json} {u : TransUnit} (h : TransUnit.ofEntry e.1 e.2 = .ok u) :
    unitOf e = u := by
  rw [unitOf, h]
  rfl

/-! What one call does. -/

section Calls

variable {c : Call} {d : Document} {name : Text} {b : Bundle} {source : Text} {calls : List Call}

theorem addable_of_taken? {f : Text × Bundle} (h : c.taken? = some f) :
    c = .add f.1 f.2 ∧ Addable f.2 := by
  cases c with
  | render => cases h
  | add name b =>
    rw [Call.taken?] at h
    split at h
    · rename_i hb
      obtain rfl := Option.some.inj h
      simp only [Bool.and_eq_true, Bool.not_eq_true'] at hb
      obtain ⟨units, hunits⟩ := exists_of_isOk hb.2
      refine ⟨rfl, hb.1, fun e he => ?_⟩
      obtain ⟨u, -, hu⟩ := exists_of_forall₂ (mapM_eq_ok_iff.mp hunits) e he
      rw [hu, unitOf_eq hu]
    · cases h

theorem add_of_addable (h : Addable b) (d : Document) (name : Text) :
    d.add name b = .ok { d with files := d.files.put name (b.map unitOf) } := by
  rw [Document.add, h.1, mapM_eq_ok h.2]
  rfl

theorem taken?_of_addable (h : Addable b) (name : Text) :
    (Call.add name b).taken? = some (name, b) := by
  rw [Call.taken?, h.1, mapM_eq_ok h.2]
  rfl

/-- A call puts the units of the bundle that it adds, and does nothing else. -/
theorem apply_eq (d : Document) (c : Call) :
    c.apply d = match c.taken? with
      | some b => { d with files := d.files.put b.1 (b.2.map unitOf) }
      | none => d := by
  cases htaken : c.taken? with
  | some b =>
    obtain ⟨rfl, hunits⟩ := addable_of_taken? htaken
    rw [Call.apply, add_of_addable hunits]
    rfl
  | none =>
    cases c with
    | render => rfl
    | add name b =>
      rw [Call.apply, Document.add]
      cases hempty : b.isEmpty with
      | true => rfl
      | false =>
        cases hunits : b.mapM fun e => TransUnit.ofEntry e.1 e.2 with
        | error e => rfl
        | ok units =>
          rw [Call.taken?, hempty, hunits] at htaken
          cases htaken

/-- The files of a writer hold the units of the last bundles that were added. -/
theorem after_eq (source : Text) (calls : List Call) :
    Document.after source calls =
      ⟨source, (Fields.ofList (taken calls)).map fun b => (b.1, b.2.map unitOf)⟩ := by
  induction calls using List.reverseRecOn with
  | nil => rfl
  | append_singleton calls c ih =>
    have hafter : Document.after source (calls ++ [c]) = c.apply (Document.after source calls) := by
      rw [Document.after, List.foldl_append]
      rfl
    have htaken : taken (calls ++ [c]) = taken calls ++ (c.taken?).toList := by
      rw [taken, List.filterMap_append]
      cases hc : c.taken? <;> simp [taken, hc]
    rw [hafter, htaken, ih, apply_eq]
    cases c.taken? with
    | none => simp
    | some b =>
      rw [Option.toList_some, Fields.ofList_concat, Fields.map_put]

theorem addable_of_mem_taken {f : Text × Bundle} (h : f ∈ taken calls) :
    Addable f.2 := by
  obtain ⟨c, -, hc⟩ := List.mem_filterMap.mp h
  exact (addable_of_taken? hc).2

/-- Where all bundles are added, the document is that of a writer after their calls. -/
theorem ofBundles_eq_after {order : Fields Bundle} (h : ∀ b ∈ order, Addable b.2)
    (source : Text) :
    Document.ofBundles source order =
      .ok (Document.after source (order.map fun b => .add b.1 b.2)) := by
  have hfold : ∀ d : Document, order.foldlM (fun d e => d.add e.1 e.2) d =
      (.ok ((order.map fun b => Call.add b.1 b.2).foldl Call.apply d) : Except ShapeError _) := by
    induction order with
    | nil => exact fun d => rfl
    | cons b order ih =>
      intro d
      obtain ⟨hb, horder⟩ := List.forall_mem_cons.mp h
      have happly : (Call.add b.1 b.2).apply d =
          { d with files := d.files.put b.1 (b.2.map unitOf) } := by
        rw [apply_eq, taken?_of_addable hb]
      rw [List.foldlM_cons, add_of_addable hb, List.map_cons, List.foldl_cons, happly]
      exact ih horder _
  exact hfold _

theorem taken_adds {order : Fields Bundle} (h : ∀ b ∈ order, Addable b.2) :
    taken (order.map fun b => .add b.1 b.2) = order := by
  rw [taken, List.filterMap_map]
  refine (List.filterMap_congr fun b hb => ?_).trans List.filterMap_some
  exact taken?_of_addable (h b hb) b.1

end Calls

/-! Which units cannot be written. -/

/-- A value whose message holds no code point. -/
def Silent (v : Json) : Prop :=
  ∃ m items, Bundle.messageOf v = .ok m ∧ m.items? = some items ∧ ∀ i ∈ items, i = .string []

theorem encode_eq_nil_iff {t : Text} : Entity.encode t = [] ↔ t = [] := by
  cases t with
  | nil => simp [Entity.encode]
  | cons p t => simp [Entity.encode, Entity.encodeOne_ne_nil]

theorem encodedMember_eq_nil_iff {t : Text} : encodedMember t = [] ↔ t = [] := by
  rw [encodedMember]
  split
  · exact encode_eq_nil_iff
  · rfl

theorem members_eq_nil_iff {items : List Json} {t : Text}
    (h : (match Bundle.texts? items with
      | some ts => .ok (ts.flatMap encodedMember)
      | none => .error .notText : Except ShapeError Text) = .ok t) :
    t = [] ↔ ∀ i ∈ items, i = .string [] := by
  cases htexts : Bundle.texts? items with
  | none =>
    rw [htexts] at h
    cases h
  | some ts =>
    rw [htexts] at h
    obtain rfl := Except.ok.inj h
    obtain rfl := texts?_eq_some htexts
    simp [List.flatMap_eq_nil_iff, encodedMember_eq_nil_iff]

/-- A part has no text exactly if it is empty or has empty members only. -/
theorem encodedPart_eq_nil_iff {m : Json} {t : Text} (h : encodedPart m = .ok t) :
    t = [] ↔ ∃ items, m.items? = some items ∧ ∀ i ∈ items, i = .string [] := by
  cases m with
  | string s =>
    obtain rfl := Except.ok.inj h
    rw [encode_eq_nil_iff]
    cases s <;> simp [Json.items?]
  | array items => exact (members_eq_nil_iff h).trans (by simp [Json.items?])
  | object fields => exact (members_eq_nil_iff h).trans (by simp [Json.items?])
  | _ => cases h

theorem unitOf_empty_iff {e : Text × Json} (h : TransUnit.ofEntry e.1 e.2 = .ok (unitOf e)) :
    ((unitOf e).id = [] ↔ e.1 = []) ∧ ((unitOf e).message = [] ↔ Silent e.2) := by
  obtain ⟨m, hm, h⟩ := bind_eq_ok_iff.mp h
  obtain ⟨t, ht, h⟩ := bind_eq_ok_iff.mp h
  obtain ⟨note, -, h⟩ := bind_eq_ok_iff.mp h
  rw [← Except.ok.inj h]
  refine ⟨encode_eq_nil_iff, (encodedPart_eq_nil_iff ht).trans ?_⟩
  constructor
  · rintro ⟨items, hitems, hall⟩
    exact ⟨m, items, hm, hitems, hall⟩
  · rintro ⟨m', items, hm', hitems, hall⟩
    obtain rfl := Except.ok.inj (hm.symm.trans hm')
    exact ⟨items, hitems, hall⟩

theorem lines?_eq_none_iff {u : TransUnit} {source : Text} :
    u.lines? source = none ↔ u.id = [] ∨ u.message = [] := by
  rw [TransUnit.lines?]
  split
  · rename_i h
    simpa using h
  · rename_i h
    simpa using h

/-! What is written. -/

section Written

variable {source : Text} {b : Bundle} {kept : Fields Bundle}

/-- The entries of a bundle in the order in which their units are written. -/
def arranged (b : Bundle) : Bundle := Text.sortBy16 (fun e => (unitOf e).message) b.reverse

/-- The entries of a bundle in an order of their messages. Of entries whose messages have the same
units, the later ones come first. -/
structure Arranged (b es : Bundle) : Prop where
  perm : es.Perm b
  sorted : es.Pairwise fun e f => (unitOf e).message.le16 (unitOf f).message = true
  later (units : List Nat) : es.filter (fun e => (unitOf e).message.units16 = units) =
    (b.filter fun e => (unitOf e).message.units16 = units).reverse

theorem arranged_arranged (b : Bundle) : Arranged b (arranged b) where
  perm := (Text.sortBy16_perm _ _).trans (List.reverse_perm _)
  sorted := Text.sortBy16_pairwise _ _
  later units := by rw [arranged, Text.filter_sortBy16, List.filter_reverse]

theorem sorted_map_unitOf (b : Bundle) :
    TransUnit.sorted (b.map unitOf) = (arranged b).map unitOf := by
  rw [TransUnit.sorted, arranged, ← List.map_reverse, Text.sortBy16_map]

/-- The lines of the unit of an entry. -/
def entryLines (source : Text) (e : Text × Json) : List Text :=
  ((unitOf e).lines? source).getD []

def fileText (source : Text) (f : Text × Bundle) : List Text :=
  fileHead source f.1 :: f.2.flatMap (entryLines source) ++ [Text.ofString "  </body></file>"]

/-- The text of files, each with the entries for which there are units in it. -/
def documentText (source : Text) (files : List (Text × Bundle)) : Text :=
  Text.join crlf (.ofChars Xml.declaration :: .ofChars rootTag ::
    files.flatMap (fileText source) ++ [.ofChars rootEnd])

theorem entryLines_eq {e : Text × Json} {ls : List Text}
    (h : (unitOf e).lines? source = some ls) : ls = entryLines source e := by
  rw [entryLines, h]
  rfl

theorem fileLines?_unitOf {f : Text × Bundle} {ls : List Text}
    (h : Document.fileLines? source f.1 (f.2.map unitOf) = some ls) :
    ls = fileText source (f.1, arranged f.2) := by
  obtain ⟨body, hbody, rfl⟩ := fileLines?_eq_some h
  rw [sorted_map_unitOf, List.forall₂_map_left_iff] at hbody
  obtain rfl := eq_map_of_forall₂ (hbody.imp fun e ls => entryLines_eq)
  rw [fileText, List.flatMap_def]

theorem fileLines?_unitOf_none {f : Text × Bundle} :
    Document.fileLines? source f.1 (f.2.map unitOf) = none ↔
      ∃ e ∈ f.2, (unitOf e).lines? source = none := by
  have hbody : Document.fileLines? source f.1 (f.2.map unitOf) = none ↔
      (TransUnit.sorted (f.2.map unitOf)).mapM (TransUnit.lines? source) = none := by
    rw [Document.fileLines?]
    cases (TransUnit.sorted (f.2.map unitOf)).mapM (TransUnit.lines? source) <;> simp
  rw [hbody, mapM_eq_none_iff]
  simp [(sorted_perm _).mem_iff]

/-- The text of the files of bundles has the files in the order of their names. -/
theorem render?_units {doc : Text}
    (h : Document.render? ⟨source, kept.map fun b => (b.1, b.2.map unitOf)⟩ = some doc) :
    doc = documentText source ((Text.sortBy16 (·.1) kept).map fun b => (b.1, arranged b.2)) := by
  obtain ⟨lss, hlss, rfl⟩ := render?_eq_some h
  rw [Text.sortBy16_map, List.forall₂_map_left_iff] at hlss
  obtain rfl := eq_map_of_forall₂ (hlss.imp fun b ls => fileLines?_unitOf)
  rw [documentText, List.flatMap_map, List.flatMap_def]

theorem render?_units_none :
    Document.render? ⟨source, kept.map fun b => (b.1, b.2.map unitOf)⟩ = none ↔
      ∃ b ∈ kept, ∃ e ∈ b.2, (unitOf e).lines? source = none := by
  have hfiles : Document.render? ⟨source, kept.map fun b => (b.1, b.2.map unitOf)⟩ = none ↔
      (Text.sortBy16 (·.1) (kept.map fun b => (b.1, b.2.map unitOf))).mapM
        (fun f => Document.fileLines? source f.1 f.2) = none := by
    rw [Document.render?]
    dsimp only
    cases (Text.sortBy16 (·.1) (kept.map fun b => (b.1, b.2.map unitOf))).mapM
      (fun f => Document.fileLines? source f.1 f.2) <;> simp
  rw [hfiles, mapM_eq_none_iff, Text.sortBy16_map]
  constructor
  · rintro ⟨f, hf, hnone⟩
    obtain ⟨b, hb, rfl⟩ := List.mem_map.mp hf
    exact ⟨b, (Text.sortBy16_perm _ _).mem_iff.mp hb, fileLines?_unitOf_none.mp hnone⟩
  · rintro ⟨b, hb, hnone⟩
    exact ⟨_, List.mem_map_of_mem ((Text.sortBy16_perm _ _).mem_iff.mpr hb),
      fileLines?_unitOf_none.mpr hnone⟩

end Written

/-- The bundles that a writer has after calls: for each name the last one that was added under it,
in whatever order. -/
structure Kept (calls : List Call) (order : Fields Bundle) : Prop where
  nodup : order.keys.Nodup
  mem_iff (b : Text × Bundle) : b ∈ order ↔ Fields.IsLast (taken calls) b

theorem kept_ofList (calls : List Call) : Kept calls (Fields.ofList (taken calls)) :=
  ⟨Fields.nodup_keys_ofList _, fun _ => Fields.mem_ofList_iff⟩

namespace Kept

variable {calls : List Call} {order : Fields Bundle}

theorem perm (h : Kept calls order) : (Fields.ofList (taken calls)).Perm order := by
  refine (List.perm_ext_iff_of_nodup (List.Nodup.of_map _ (Fields.nodup_keys_ofList _))
    (List.Nodup.of_map _ h.nodup)).mpr fun b => ?_
  exact Fields.mem_ofList_iff.trans (h.mem_iff b).symm

theorem addable (h : Kept calls order) {b : Text × Bundle} (hb : b ∈ order) : Addable b.2 := by
  obtain ⟨earlier, later, hsplit, -⟩ := (h.mem_iff b).mp hb
  have htaken : b ∈ taken calls := by simp [hsplit]
  exact addable_of_mem_taken htaken

/-- A new writer renders the bundles as the old one does, in whatever order it gets them. -/
theorem render?_eq (h : Kept calls order) (source : Text) (hnames : Text.Apart order.keys) :
    ∃ d, Document.ofBundles source order = .ok d ∧
      d.render? = (Document.after source calls).render? := by
  refine ⟨_, ofBundles_eq_after (fun b hb => h.addable hb) source, ?_⟩
  rw [after_eq, after_eq, taken_adds fun b hb => h.addable hb, Fields.ofList_eq_self h.nodup]
  have hsorted : Text.sortBy16 (·.1) order = Text.sortBy16 (·.1) (Fields.ofList (taken calls)) := by
    refine Text.sortBy16_eq_of_perm h.perm.symm fun a ha b hb hunits => ?_
    have hkey := hnames a.1 (List.mem_map_of_mem ha) b.1 (List.mem_map_of_mem hb) hunits
    have hvalue := (Fields.get?_of_mem h.nodup ha).symm.trans
      (hkey ▸ Fields.get?_of_mem h.nodup hb)
    exact Prod.ext hkey (Option.some.inj hvalue)
  rw [Document.render?, Document.render?]
  simp only [Text.sortBy16_map, hsorted]

/-- Names that are told apart come one after another, each later than the one before. -/
theorem sorted_strictly (h : Kept calls order) (hnames : Text.Apart order.keys) :
    (Text.sortBy16 (·.1) order).Pairwise fun a b => b.1.le16 a.1 = false := by
  have hnodup : (Text.sortBy16 (·.1) order).Pairwise fun a b => a.1 ≠ b.1 :=
    List.pairwise_map.mp (((Text.sortBy16_perm _ _).map _).nodup_iff.mpr h.nodup)
  refine (hnodup.and (Text.sortBy16_pairwise _ _)).imp_of_mem ?_
  rintro a b ha hb ⟨hne, hle⟩
  have hmem : ∀ {c}, c ∈ Text.sortBy16 (·.1) order → c.1 ∈ order.keys := fun hc =>
    List.mem_map_of_mem ((Text.sortBy16_perm _ _).mem_iff.mp hc)
  by_contra hge
  exact hne (hnames a.1 (hmem ha) b.1 (hmem hb)
    (Text.units16_eq_of_le16 hle (by simpa using hge)))

end Kept

/-- After any calls of one writer. A new writer that is given, in any order, the last bundle that
was added under each name renders the same, and each name comes later than the one before it, if
code units tell the names apart, as those of texts do in which no surrogates stand in pairs.
Rendering fails exactly if one of these bundles has an empty key or a message that holds nothing.
Else there is a file for each of them, in the order of the names, with its entries in the order of
their messages and the later ones of equals first. -/
theorem rendered_after (source : Text) (calls : List Call) {order : Fields Bundle}
    (horder : Kept calls order) :
    (Text.Apart order.keys → ∃ d, Document.ofBundles source order = .ok d ∧
      d.render? = (Document.after source calls).render?) ∧
    ((Document.after source calls).render? = none ↔
      ∃ b ∈ order, ∃ e ∈ b.2, e.1 = [] ∨ Silent e.2) ∧
    ∀ doc, (Document.after source calls).render? = some doc →
      ∃ files : List (Text × Bundle), doc = documentText source files ∧
        files.Pairwise (fun f g => f.1.le16 g.1 = true) ∧
        (Text.Apart order.keys → files.Pairwise fun f g => g.1.le16 f.1 = false) ∧
        ∃ bundles, bundles.Perm order ∧
          List.Forall₂ (fun b f => f.1 = b.1 ∧ Arranged b.2 f.2) bundles files := by
  refine ⟨horder.render?_eq source, ?_, fun doc hdoc => ?_⟩
  · rw [after_eq, render?_units_none]
    have hempty : ∀ b ∈ order, ∀ e ∈ b.2,
        (unitOf e).lines? source = none ↔ e.1 = [] ∨ Silent e.2 := by
      intro b hb e he
      obtain ⟨hkey, hmessage⟩ := unitOf_empty_iff ((horder.addable hb).2 e he)
      rw [lines?_eq_none_iff, hkey, hmessage]
    constructor
    · rintro ⟨b, hb, e, he, hnone⟩
      have hb := horder.perm.mem_iff.mp hb
      exact ⟨b, hb, e, he, (hempty b hb e he).mp hnone⟩
    · rintro ⟨b, hb, e, he, hnone⟩
      exact ⟨b, horder.perm.mem_iff.mpr hb, e, he, (hempty b hb e he).mpr hnone⟩
  · rw [after_eq] at hdoc
    refine ⟨_, render?_units hdoc, ?_, fun hnames => ?_,
      Text.sortBy16 (·.1) (Fields.ofList (taken calls)),
      (Text.sortBy16_perm _ _).trans horder.perm, ?_⟩
    · exact List.pairwise_map.mpr (Text.sortBy16_pairwise _ _)
    · refine List.pairwise_map.mpr ((kept_ofList calls).sorted_strictly fun a ha b hb => ?_)
      have hperm := horder.perm.map Prod.fst
      exact hnames a (hperm.mem_iff.mp ha) b (hperm.mem_iff.mp hb)
    · exact List.forall₂_map_right_iff.mpr
        (List.forall₂_same.mpr fun b _ => ⟨rfl, arranged_arranged b.2⟩)

/-- Two names with the same code units, one of them a character and the other one its surrogates. The
file that is added first comes first, so the order in which a writer is given their bundles shows in
what it renders, and neither name is later than the other one. And a message of two empty parts,
which is not empty itself, fails the rendering. -/
theorem rendered_after_namesakes :
    let b : Bundle := [("k", .string "v")]
    let joined : Text := [.char (.ofNat 0x1F600)]
    let parted : Text := [.surrogate 0x3D, .surrogate 0x600]
    let calls : List Call := [.add joined b, .add parted b]
    let order : Fields Bundle := [(parted, b), (joined, b)]
    let hollow : Json := .object [("message", .array [.string [], .string []])]
    (joined ≠ parted ∧ Kept calls order ∧
      ∀ d, Document.ofBundles "en" order = .ok d →
        d.render? ≠ (Document.after "en" calls).render?) ∧
    (∀ names : List Text, names.Perm [joined, parted] →
      ¬ names.Pairwise fun s t => t.le16 s = false) ∧
    (Document.after "en" [.add "b" [("k", hollow)]]).render? = none ∧
      Bundle.messageOf hollow = .ok (.array [.string [], .string []]) := by
  intro b joined parted calls order hollow
  have hunits : joined.units16 = parted.units16 := by decide
  refine ⟨⟨by decide, ⟨by decide, fun f => ?_⟩, fun d hd => ?_⟩, fun names hnames hlater => ?_,
    by decide +kernel, rfl⟩
  · have htaken : Fields.ofList (taken calls) = [(joined, b), (parted, b)] := rfl
    rw [← Fields.mem_ofList_iff, htaken]
    simp [order, or_comm]
  · obtain rfl : Document.after "en" [.add parted b, .add joined b] = d := Except.ok.inj hd
    have hsame : Text.sortBy16 (·.1) (Document.after "en" calls).files =
        (Document.after "en" calls).files := List.mergeSort_of_pairwise (by decide +kernel)
    have hother : Text.sortBy16 (·.1) (Document.after "en" [.add parted b, .add joined b]).files =
        (Document.after "en" [.add parted b, .add joined b]).files :=
      List.mergeSort_of_pairwise (by decide +kernel)
    rw [Document.render?, Document.render?, hsame, hother]
    decide +kernel
  · have hlater : ([joined, parted] : List Text).Pairwise fun s t => s.units16 ≠ t.units16 := by
      refine (hnames.pairwise_iff fun h => h.symm).mp (hlater.imp fun hlt heq => ?_)
      exact Bool.false_ne_true (hlt.symm.trans (Text.le16_of_units16_eq heq.symm))
    exact List.rel_of_pairwise_cons hlater (List.mem_singleton_self _) hunits

/-- A bundle is added again after one that cannot be added and an empty one, and is rendered in
between. A new writer gets the last bundles the other way round. -/
theorem rendered_after_again :
    let first : Bundle := [("k", .string "y"), ("l", .string "y")]
    let last : Bundle := [("m", .string "z")]
    let calls : List Call := [.add "b" [("x", .string "x")], .render, .add "a" first,
      .add "b" [("x", .integer 5)], .add "c" [], .add "b" last]
    (∃ d, Document.ofBundles "en" [("a", first), ("b", last)] = .ok d ∧
      d.render? = (Document.after "en" calls).render?) ∧
    (Document.after "en" calls).render? ≠ none := by
  intro first last calls
  have htaken : Fields.ofList (taken calls) =
      [(Text.ofString "b", last), (Text.ofString "a", first)] := rfl
  have horder : Kept calls [("a", first), ("b", last)] := by
    refine ⟨by decide, fun b => ?_⟩
    rw [← Fields.mem_ofList_iff, htaken]
    simp [or_comm]
  obtain ⟨hsame, hempty, -⟩ := rendered_after "en" calls horder
  have hentry : ∀ k m : Char, ¬ (Text.ofChars [k] = [] ∨ Silent (.string (Text.ofChars [m]))) := by
    rintro k m (hkey | ⟨v, items, hv, hitems, hall⟩)
    · cases hkey
    · obtain rfl := Except.ok.inj hv
      obtain rfl := Option.some.inj hitems
      simp at hall
  refine ⟨hsame (Text.apart_of_joined ?_), fun hnone => ?_⟩
  · simp only [Fields.keys, List.map_cons, List.map_nil, List.forall_mem_cons]
    exact ⟨Text.joined_ofChars _, Text.joined_ofChars _, by simp⟩
  · obtain ⟨b, hb, e, he, hempty⟩ := hempty.mp hnone
    simp only [List.mem_cons, List.not_mem_nil, or_false] at hb
    rcases hb with rfl | rfl
    · simp only [first, List.mem_cons, List.not_mem_nil, or_false] at he
      rcases he with rfl | rfl
      · exact hentry 'k' 'y' hempty
      · exact hentry 'l' 'y' hempty
    · obtain rfl := List.mem_singleton.mp he
      exact hentry 'm' 'z' hempty

end Localization.Xliff
