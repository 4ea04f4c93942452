import Localization.Proofs.Xliff.Decoding
import Localization.Proofs.Xliff.Visited
import Mathlib.Data.List.Nodup
import Mathlib.Data.List.Perm.Basic

/-! Documents whose files, and the units in these, stand in another order. Where names and keys tell
the files and the units apart, what is read of such a document is the same. -/

namespace Localization.Xliff

open Xml

/-- The second element is the first with its units in another order. -/
structure Regrouped (x y : Element) : Prop where
  attributes : y.attributes = x.attributes
  units : (unitsOf y).Perm (unitsOf x)

/-- The second element is the first with its files, and the units in these, in another order. -/
structure Rearranged (root moved : Element) : Prop where
  name : moved.name = root.name
  files : ∃ xs, xs.Perm (root.children "file") ∧ List.Forall₂ Regrouped xs (moved.children "file")

/-- The translated units of a file have different keys. -/
def KeysDiffer (x : Element) : Prop := (((unitsOf x).filter isTranslated).map unitKey).Nodup

/-- The files have names with different keys in the order of names. -/
def NamesDiffer (files : List Element) : Prop :=
  (files.map fun x => (x.attribute? "original").map fun cs => Text.nameKey (.ofChars cs)).Nodup

/-! The messages of units that have changed places. -/

/-- A key is told from any other by its code units: it holds no surrogates. -/
theorem KeyOf.joined {x : Element} {k : Text} (h : KeyOf x k) : Text.Joined k := by
  cases h with
  | text | noted => exact Text.joined_ofChars _
  | literal =>
    refine Text.joined_of_not_mem fun n hn => ?_
    rcases Entity.mem_decode hn with hn | ⟨e, he, hn⟩
    · simp [Text.ofChars] at hn
    · simp only [Entity.decodeOrder, List.mem_cons, List.not_mem_nil, or_false] at he
      rcases he with rfl | rfl | rfl | rfl | rfl | rfl | rfl <;> cases hn

/-- What units say has the keys of the units. -/
theorem keys_said {units : List Element} {said : Fields Text}
    (h : List.Forall₂ Says units said) :
    units.map unitKey = (said.keys.map .ok : List (Except ReadError Text)) := by
  induction h with
  | nil => rfl
  | cons hsays _ ih => simp [ih, unitKey_eq_ok_iff.mpr hsays.1]

/-- The order of units does not matter for their messages if their keys differ. -/
theorem messagesOf_perm {units moved : List Element} {m : Fields Text}
    (hperm : moved.Perm units) (h : messagesOf units = .ok m)
    (hkeys : ((units.filter isTranslated).map unitKey).Nodup) : messagesOf moved = .ok m := by
  obtain ⟨found, hfound, rfl⟩ := map_eq_ok_iff.mp h
  obtain ⟨found', hfound', hperm'⟩ := List.perm_comp_forall₂ hperm (mapM_eq_ok_iff.mp hfound)
  obtain ⟨-, hsays⟩ := said_of_mapM hfound
  have hsaid : (found'.filterMap id).Perm (found.filterMap id) := hperm'.filterMap id
  have hnodup : (Fields.keys (found.filterMap id)).Nodup := by
    rw [keys_said hsays] at hkeys
    exact hkeys.of_map _
  have hnodup' : (Fields.keys (found'.filterMap id)).Nodup := (hsaid.map _).nodup_iff.mpr hnodup
  rw [messagesOf, mapM_eq_ok_iff.mpr hfound', Except.map, Fields.ofList_eq_self hnodup,
    Fields.ofList_eq_self hnodup']
  refine congrArg _ (Text.sortBy16_eq_of_perm hsaid fun a ha b hb hunits => ?_)
  obtain ⟨x, -, hx⟩ := exists_of_forall₂ hsays.flip a (hsaid.mem_iff.mp ha)
  obtain ⟨y, -, hy⟩ := exists_of_forall₂ hsays.flip b (hsaid.mem_iff.mp hb)
  exact List.inj_on_of_nodup_map hnodup' ha hb (hx.1.joined.eq_of_units16 hy.1.joined hunits)

/-! Files that have changed places. -/

theorem Regrouped.attribute? {x y : Element} (h : Regrouped x y) (name : String) :
    y.attribute? name = x.attribute? name := by
  rw [Element.attribute?, h.attributes, Element.attribute?]

/-- A file with its units in another order is read as before if their keys differ. -/
theorem Regrouped.fileOf_eq {x y : Element} (h : Regrouped x y) (hkeys : KeysDiffer x)
    {r : Text × Option LocalizedFile} (hr : fileOf x = .ok r) : fileOf y = .ok r := by
  have hname : ¬ Lacks x "original" := fun hlacks => by simp [fileOf_unnamed hlacks] at hr
  have hlanguage : ¬ Lacks x "target-language" := fun hlacks => by
    simp [fileOf_unspoken hname hlacks] at hr
  obtain ⟨original, horiginal, hnameNe⟩ := exists_attribute hname
  obtain ⟨language, htarget, hlanguageNe⟩ := exists_attribute hlanguage
  have hunits : (unitsOf y).isEmpty = (unitsOf x).isEmpty := by
    rw [Bool.eq_iff_iff, List.isEmpty_iff, List.isEmpty_iff, ← List.length_eq_zero_iff,
      h.units.length_eq, List.length_eq_zero_iff]
  rw [fileOf_named horiginal hnameNe htarget hlanguageNe] at hr
  rw [fileOf_named ((h.attribute? _).trans horiginal) hnameNe ((h.attribute? _).trans htarget)
    hlanguageNe, hunits]
  split
  · rename_i hempty
    rwa [if_pos hempty] at hr
  · rename_i hfilled
    rw [if_neg hfilled] at hr
    obtain ⟨m, hm, rfl⟩ := map_eq_ok_iff.mp hr
    rw [messagesOf_perm h.units hm hkeys]
    rfl

/-- Files in another order are read as the same files in another order. -/
theorem filesOf_rearranged {xs ys zs : List Element} (hperm : zs.Perm xs)
    (hmoved : List.Forall₂ Regrouped zs ys) (hkeys : ∀ x ∈ xs, KeysDiffer x)
    {files : List LocalizedFile} (h : (filesOf xs).1 = .ok files) :
    ∃ files', (filesOf ys).1 = .ok files' ∧ files'.Perm files := by
  rw [filesOf_eq] at h
  obtain ⟨found, hfound, rfl⟩ := map_eq_ok_iff.mp h
  obtain ⟨found', hfound', hperm'⟩ := List.perm_comp_forall₂ hperm (mapM_eq_ok_iff.mp hfound)
  have hys : List.Forall₂ (fun y r => fileOf y = .ok r) ys found' := by
    have hkept := (List.forall₂_and_left zs ys).mpr
      ⟨fun z hz => hkeys z (hperm.mem_iff.mp hz), hmoved⟩
    refine (forall₂_comp hkept.flip hfound').imp ?_
    rintro y r ⟨z, ⟨hz, hregrouped⟩, hr⟩
    exact hregrouped.fileOf_eq hz hr
  refine ⟨found'.filterMap (·.2), ?_, hperm'.filterMap _⟩
  rw [filesOf_eq, mapM_eq_ok_iff.mpr hys]
  rfl

/-- Files that are read under names of one key are the same if the names differ. -/
theorem eq_of_nameKey {xs : List Element} (hnames : NamesDiffer xs) {files : List LocalizedFile}
    (h : (filesOf xs).1 = .ok files) {f g : LocalizedFile} (hf : f ∈ files) (hg : g ∈ files)
    (hkey : Text.nameKey f.name = Text.nameKey g.name) : f = g := by
  obtain ⟨x, hx, n, hfx⟩ := exists_fileOf h hf
  obtain ⟨y, hy, m, hgy⟩ := exists_fileOf h hg
  obtain ⟨-, ⟨-, f', hf', hentry⟩ | ⟨-, hnone⟩⟩ := entry_of_fileOf hfx
  · obtain ⟨-, ⟨-, g', hg', hentry'⟩ | ⟨-, hnone⟩⟩ := entry_of_fileOf hgy
    · obtain rfl := Option.some.inj hf'
      obtain rfl := Option.some.inj hg'
      obtain ⟨cs, hcs, -, hfname⟩ := hentry.name
      obtain ⟨ds, hds, -, hgname⟩ := hentry'.name
      have hxy : x = y := by
        refine List.inj_on_of_nodup_map hnames hx hy ?_
        rw [hcs, hds, Option.map_some, Option.map_some, ← hfname, ← hgname, hkey]
      rw [hxy, hgy] at hfx
      exact (Option.some.inj (Prod.mk.inj (Except.ok.inj hfx)).2).symm
    · cases hnone
  · cases hnone

theorem sortFiles_eq_of_perm {files files' : List LocalizedFile} (hperm : files'.Perm files)
    (hnames : ∀ f ∈ files, ∀ g ∈ files, Text.nameKey f.name = Text.nameKey g.name → f = g) :
    sortFiles files' = sortFiles files := by
  have hsorted : (sortFiles files).Perm files := List.mergeSort_perm _ _
  have hsorted' : (sortFiles files').Perm files' := List.mergeSort_perm _ _
  refine List.Perm.eq_of_pairwise (fun f g hf hg hfg hgf => ?_) (sortFiles_pairwise files')
    (sortFiles_pairwise files) (hsorted'.trans (hperm.trans hsorted.symm))
  exact hnames f (hperm.mem_iff.mp (hsorted'.mem_iff.mp hf)) g (hsorted.mem_iff.mp hg)
    (Text.nameKey_eq_of_nameLe hfg hgf)

/-- A document that is accepted, in which the names of the files differ and so do the keys of the
translated units of each file, is accepted with the same result, entry by entry and message by
message, when its files and the units in these stand in another order. -/
theorem readElement_rearranged {root moved : Element} (hmoved : Rearranged root moved)
    (hnames : NamesDiffer (root.children "file"))
    (hkeys : ∀ x ∈ root.children "file", KeysDiffer x) {files : List LocalizedFile}
    (h : (readElement root).1 = .ok files) :
    (readElement moved).1 = .ok files ∧
      ∀ document, readDocument (document.dropWhile isMargin) = .ok moved →
        (read document).1 = .ok files := by
  have hread : (readElement moved).1 = .ok files := by
    obtain ⟨hname, hne⟩ : root.name = "xliff".toList ∧ root.children "file" ≠ [] := by
      by_contra hno
      rw [not_and_or, not_not] at hno
      rw [readElement_refused hno] at h
      cases h
    obtain ⟨xs, hperm, hregrouped⟩ := hmoved.files
    have hne' : moved.children "file" ≠ [] := by
      rintro hempty
      rw [hempty, List.forall₂_nil_right_iff] at hregrouped
      rw [hregrouped] at hperm
      exact hne (List.nil_perm.mp hperm)
    rw [readElement_eq hname hne] at h
    obtain ⟨found, hfound, rfl⟩ := map_eq_ok_iff.mp h
    obtain ⟨found', hfound', hperm'⟩ := filesOf_rearranged hperm hregrouped hkeys hfound
    rw [readElement_eq (hmoved.name.trans hname) hne', hfound', Except.map,
      sortFiles_eq_of_perm hperm' fun f hf g hg => eq_of_nameKey hnames hfound hf hg]
  exact ⟨hread, fun document hdocument => by rw [read, hdocument]; exact hread⟩

/-- A unit with a target. -/
def translatedUnitOf (id target : String) : Element where
  name := "trans-unit".toList
  attributes := [("id".toList, id.toList)]
  content := [.element "target".toList [] [.text target.toList]]

/-- A German file of units. -/
def germanFileOf (name : String) (units : List Element) : Element where
  name := "file".toList
  attributes := [("original".toList, name.toList), ("target-language".toList, "DE".toList)]
  content := [.element "body".toList [] (units.map Element.toNode)]

theorem fileOf_germanFileOf {name : String} {units : List Element} {m : Fields Text}
    (hname : name.toList ≠ []) (hunits : unitsOf (germanFileOf name units) = units)
    (hne : units ≠ []) (hm : messagesOf units = .ok m) :
    fileOf (germanFileOf name units) = .ok (name, some ⟨name, "de", m⟩) := by
  have hlower : Text.lower "DE" = "de" := by decide +kernel
  have hsome : ¬ units.isEmpty = true := by rwa [List.isEmpty_iff]
  rw [fileOf_named rfl hname rfl (by decide), hunits, if_neg hsome, hm, Except.map, ← hlower]
  rfl

/-- Two files and the units of one of them change places. Names are ordered without case. -/
theorem readElement_rearranged_names :
    let a := translatedUnitOf "a" "eins"
    let b := translatedUnitOf "b" "zwei"
    let root : Element := ⟨"xliff".toList, [],
      [(germanFileOf "a" [a, b]).toNode, (germanFileOf "B" [a]).toNode]⟩
    let moved : Element := ⟨"xliff".toList, [],
      [(germanFileOf "B" [a]).toNode, .text ['\n'], (germanFileOf "a" [b, a]).toNode]⟩
    Rearranged root moved ∧ (readElement moved).1 =
      .ok [⟨"a", "de", [("a", "eins"), ("b", "zwei")]⟩, ⟨"B", "de", [("a", "eins")]⟩] := by
  intro a b root moved
  have hmoved : Rearranged root moved := by
    refine ⟨rfl, [germanFileOf "B" [a], germanFileOf "a" [a, b]], .swap _ _ _, ?_⟩
    exact .cons ⟨rfl, .refl _⟩ (.cons ⟨rfl, .swap _ _ _⟩ .nil)
  have hchildren : root.children "file" = [germanFileOf "a" [a, b], germanFileOf "B" [a]] := rfl
  have hkeys : ∀ x ∈ root.children "file", KeysDiffer x := by
    rw [hchildren, List.forall_mem_cons, List.forall_mem_singleton]
    exact ⟨by unfold KeysDiffer; decide +kernel, by unfold KeysDiffer; decide +kernel⟩
  have hnames : NamesDiffer (root.children "file") := by
    unfold NamesDiffer
    decide +kernel
  have hsaid : messagesOf [a, b] = .ok [("a", "eins"), ("b", "zwei")] := by
    have hsorted : messagesOf [a, b] =
        .ok (Text.sortBy16 (·.1) [("a", "eins"), ("b", "zwei")]) := rfl
    rw [hsorted, Text.sortBy16, List.mergeSort_of_pairwise (by decide +kernel)]
  have hsaidOnce : messagesOf [a] = .ok [("a", "eins")] := by
    have hsorted : messagesOf [a] = .ok (Text.sortBy16 (·.1) [("a", "eins")]) := rfl
    rw [hsorted, Text.sortBy16, List.mergeSort_singleton]
  have hfiles : (filesOf (root.children "file")).1 =
      .ok [⟨"a", "de", [("a", "eins"), ("b", "zwei")]⟩, ⟨"B", "de", [("a", "eins")]⟩] := by
    rw [hchildren, filesOf, fileOf_germanFileOf (by decide) rfl (by simp) hsaid, filesOf,
      fileOf_germanFileOf (by decide) rfl (by simp) hsaidOnce]
    rfl
  have hname : root.name = "xliff".toList := rfl
  have hread := readElement_eq hname (by rw [hchildren]; simp)
  rw [hfiles, Except.map, sortFiles, List.mergeSort_of_pairwise (by decide +kernel)] at hread
  exact ⟨hmoved, (readElement_rearranged hmoved hnames hkeys hread).1⟩

end Localization.Xliff
