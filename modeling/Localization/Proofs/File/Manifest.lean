import Localization.File.Manifest
import Localization.Proofs.Result

/-! The folder that is asked for, against the manifest of the package. It wins over every manifest
that is not there or cannot be read, and over every object whose entry for the folder is absent or a
path. A manifest of another kind, or an entry of another kind, stands in its way, and so does a
manifest that is nested too deeply. -/

namespace Localization.Manifest

/-- An object names a place as the folder of the bundles. -/
def Names (working : Place) (directory : Path) (fields : Fields Json) (place : Place) : Prop :=
  ∃ own, Fields.get? entryName fields = some (.string own) ∧ own ≠ [] ∧
    resolve working directory own = .ok place

/-- What comes of reading a manifest stands in the way of every folder that is asked for. -/
inductive Obstructs (working : Place) (directory : Path) : Except ReadFault Json → Fault → Prop
  | nested {what said : String} :
    Obstructs working directory (.error (.notData (.deep what) said)) (.deep what)
  | notObject {v : Json} (null : v ≠ .null) (kind : ∀ fields, v ≠ .object fields) :
    Obstructs working directory (.ok v) .notObject
  | notText {fields : Fields Json} {v : Json} (entry : Fields.get? entryName fields = some v)
    (present : v.isPresent = true) (kind : ∀ own, v ≠ .string own) :
    Obstructs working directory (.ok (.object fields)) .notText
  | noPath {fields : Fields Json} {own : Text} {f : Fault}
    (entry : Fields.get? entryName fields = some (.string own)) (present : own ≠ [])
    (fault : resolve working directory own = .error f) :
    Obstructs working directory (.ok (.object fields)) f

variable {t : FileTree} {working place : Place} {directory : Path} {folder : Text}
  {fields : Fields Json} {v : Json} {f : Fault} {nesting : Nat}

/-- An entry says nothing, or names a folder, or stands in the way. -/
theorem entry_cases (working : Place) (directory : Path) (fields : Fields Json) :
    (entry (.object fields) = .ok none ∧
        ∀ own, Fields.get? entryName fields = some (.string own) → own = []) ∨
      (∃ own, entry (.object fields) = .ok (some own) ∧
        Fields.get? entryName fields = some (.string own) ∧ own ≠ []) ∨
      entry (.object fields) = .error .notText ∧
        Obstructs working directory (.ok (.object fields)) .notText := by
  rw [entry]
  cases hget : Fields.get? entryName fields with
  | none => exact .inl ⟨rfl, fun own h => (by cases h)⟩
  | some v =>
    dsimp only
    cases hpresent : v.isPresent with
    | false =>
      refine .inl ⟨rfl, fun own h => ?_⟩
      obtain rfl := Option.some.inj h
      simpa [Json.isPresent] using hpresent
    | true =>
      cases v with
      | string own =>
        exact .inr (.inl ⟨own, rfl, rfl, by simpa [Json.isPresent] using hpresent⟩)
      | _ => exact .inr (.inr ⟨rfl, .notText hget hpresent fun own => Json.noConfusion⟩)

/-- What stands in the way of a folder is the fault of asking for it. -/
theorem asked_of_obstructs (h : Obstructs working directory (.ok v) f)
    (hplace : resolve working directory folder = .ok place) :
    asked working directory v folder = .error f := by
  cases h with
  | notObject _ kind =>
    cases v with
    | object fields => exact absurd rfl (kind fields)
    | _ => rfl
  | @notText fields v hentry present kind =>
    have herror : entry (.object fields) = .error .notText := by
      rw [entry, hentry]
      dsimp only
      rw [present]
      cases v with
      | string own => exact absurd rfl (kind own)
      | _ => rfl
    simp only [asked, hplace, herror, bind, Except.bind]
  | @noPath fields own f hentry present fault =>
    have hown : entry (.object fields) = .ok (some own) := by
      rw [entry, hentry]
      simp [Json.isPresent, present]
    simp only [asked, hplace, hown, fault, bind, Except.bind]

/-- If nothing stands in the way of a folder, it is compared with the one that the object names. -/
theorem asked_of_not_obstructs (h : ∀ f, ¬ Obstructs working directory (.ok (.object fields)) f)
    (hplace : resolve working directory folder = .ok place) :
    ∃ mismatch, asked working directory (.object fields) folder = .ok (place, mismatch) ∧
      (mismatch = true ↔ ¬ Names working directory fields place) := by
  obtain ⟨hnone, hget⟩ | ⟨own, hown, hget, hne⟩ | ⟨-, hobstructs⟩ :=
    entry_cases working directory fields
  · refine ⟨true, ?_, iff_of_true rfl fun ⟨own, hown, hne, _⟩ => hne (hget own hown)⟩
    simp only [asked, hplace, hnone, bind, Except.bind, pure, Except.pure]
  · cases hresolve : resolve working directory own with
    | error f => exact absurd (.noPath hget hne hresolve) (h f)
    | ok q =>
      refine ⟨decide (q ≠ place), ?_, ?_⟩
      · simp only [asked, hplace, hown, hresolve, bind, Except.bind, pure, Except.pure]
      · rw [decide_eq_true_eq, not_iff_not]
        constructor
        · rintro rfl
          exact ⟨own, hget, hne, hresolve⟩
        · rintro ⟨own', hget', -, hresolve'⟩
          obtain rfl : own = own' := by simpa [hget] using hget'
          exact Except.ok.inj (hresolve.symm.trans hresolve')
  · exact absurd hobstructs (h _)

/-- A folder that is no path is refused, whatever the manifest says. -/
theorem asked_of_error (hfolder : resolve working directory folder = .error f) :
    ∃ f', asked working directory v folder = .error f' := by
  cases v with
  | object fields => exact ⟨f, by simp only [asked, hfolder, bind, Except.bind]⟩
  | _ => exact ⟨.notObject, rfl⟩

theorem mismatchNotice_ne_unreadableNotice (p : Path) (f : ReadFault) :
    mismatchNotice ≠ unreadableNotice p f := fun h => by cases congrArg Notice.level h

/-- What is made of a manifest that is read, of one that is nested too deeply, and of one that is not
read, which stands in no way. -/
theorem load_cases (t : FileTree) (working : Place) (directory : Path) (nesting : Nat) :
    let manifest := t.readData working (directory ++ Path.ofText fileName) nesting
    let loaded := load t working directory nesting
    (∃ v, manifest = .ok v ∧ v ≠ .null ∧ loaded = (.ok (some v), [])) ∨
      (∃ what said, manifest = .error (.notData (.deep what) said) ∧
        loaded = (.error (.deep what), [])) ∨
      (∀ f, ¬ Obstructs working directory manifest f) ∧
        (∀ fields, manifest ≠ .ok (.object fields)) ∧
        ∃ notices, loaded = (.ok none, notices) ∧ mismatchNotice ∉ notices := by
  intro manifest loaded
  have hloaded : loaded = load t working directory nesting := rfl
  rw [load] at hloaded
  generalize hmanifest : manifest = read at hloaded ⊢
  have hread : t.readData working (directory ++ Path.ofText fileName) nesting = read := hmanifest
  rw [hread] at hloaded
  split at hloaded
  · refine .inr (.inr ⟨fun f h => ?_, fun fields => by simp, [], hloaded, List.not_mem_nil⟩)
    cases h with
    | notObject null _ => exact null rfl
  · rename_i v hnull
    exact .inl ⟨v, rfl, hnull, hloaded⟩
  · exact .inr (.inr ⟨fun f h => (by cases h), fun fields => by simp, [], hloaded,
      List.not_mem_nil⟩)
  · rename_i what said
    exact .inr (.inl ⟨what, said, rfl, hloaded⟩)
  · rename_i fault _ hdeep
    refine .inr (.inr ⟨fun f h => ?_, fun fields => by simp, _, hloaded,
      by simpa using mismatchNotice_ne_unreadableNotice _ _⟩)
    cases h with
    | nested => exact hdeep _ _ rfl

section Export

variable (hne : folder ≠ [])
include hne

theorem exportFolder_of_asked {mismatch : Bool}
    (hload : load t working directory nesting = (.ok (some v), []))
    (h : asked working directory v folder = .ok (place, mismatch)) :
    exportFolder t working directory (some folder) nesting =
      (.ok (some place), if mismatch then [mismatchNotice] else []) := by
  simp only [exportFolder, hload, Option.filter_some, List.isEmpty_eq_false_iff.mpr hne,
    Bool.not_false, if_true, h, List.nil_append]

theorem exportFolder_of_refused (hload : load t working directory nesting = (.ok (some v), []))
    (h : asked working directory v folder = .error f) :
    exportFolder t working directory (some folder) nesting = (.error f, []) := by
  simp only [exportFolder, hload, Option.filter_some, List.isEmpty_eq_false_iff.mpr hne,
    Bool.not_false, if_true, h]

/-- If a manifest does not stand in the way of a folder, it is an object, and the notice of a
mismatch is given if that does not name the place. -/
theorem exportFolder_of_not_obstructs
    (hload : load t working directory nesting = (.ok (some v), [])) (hnull : v ≠ .null)
    (h : ∀ f, ¬ Obstructs working directory (.ok v) f)
    (hplace : resolve working directory folder = .ok place) :
    ∃ fields notices, v = .object fields ∧
      exportFolder t working directory (some folder) nesting = (.ok (some place), notices) ∧
      (mismatchNotice ∈ notices ↔ ¬ Names working directory fields place) := by
  obtain ⟨fields, rfl⟩ : ∃ fields, v = .object fields := by
    by_contra hkind
    exact h _ (.notObject hnull fun fields hv => hkind ⟨fields, hv⟩)
  obtain ⟨mismatch, hasked, hmismatch⟩ := asked_of_not_obstructs h hplace
  refine ⟨fields, _, rfl, exportFolder_of_asked hne hload hasked, ?_⟩
  rw [← hmismatch]
  cases mismatch <;> simp

theorem exportFolder_of_none {notices : List Notice}
    (hload : load t working directory nesting = (.ok none, notices)) :
    exportFolder t working directory (some folder) nesting =
      ((resolve working directory folder).map some, notices) := by
  simp only [exportFolder, hload, Option.filter_some, List.isEmpty_eq_false_iff.mpr hne,
    Bool.not_false, if_true]

end Export

theorem exportFolder_of_error (hload : load t working directory nesting = (.error f, [])) :
    exportFolder t working directory (some folder) nesting = (.error f, []) := by
  simp only [exportFolder, hload]

/-- A folder that is asked for is the one in which a bundle is written, if it is a path, whatever
state the manifest is in, unless what comes of reading it stands in the way: then there is no folder
and no notice. The notice of a mismatch is given exactly if an object was read that does not name
that place. -/
theorem exportFolder_asked (t : FileTree) (working : Place) (directory : Path) {folder : Text}
    (hne : folder ≠ []) (nesting : Nat) :
    let manifest := t.readData working (directory ++ Path.ofText fileName) nesting
    let answer := exportFolder t working directory (some folder) nesting
    (∀ place, resolve working directory folder = .ok place →
      (∀ f, Obstructs working directory manifest f → answer = (.error f, [])) ∧
      ((∀ f, ¬ Obstructs working directory manifest f) →
        answer.1 = .ok (some place) ∧ (mismatchNotice ∈ answer.2 ↔
          ∃ fields, manifest = .ok (.object fields) ∧ ¬ Names working directory fields place))) ∧
    ∀ f, resolve working directory folder = .error f →
      (∃ f', answer.1 = .error f') ∧ mismatchNotice ∉ answer.2 := by
  intro manifest answer
  obtain ⟨v, hread, hnull, hload⟩ | ⟨what, said, hread, hload⟩ |
    ⟨hnone, hobject, notices, hload, hnotices⟩ := load_cases t working directory nesting
  · have hmanifest : manifest = .ok v := hread
    rw [hmanifest]
    refine ⟨fun place hplace => ⟨fun f hobstructs => ?_, fun hnone => ?_⟩, fun f hf => ?_⟩
    · exact exportFolder_of_refused hne hload (asked_of_obstructs hobstructs hplace)
    · obtain ⟨fields, notices, rfl, hexport, hmismatch⟩ :=
        exportFolder_of_not_obstructs hne hload hnull hnone hplace
      have hanswer : answer = _ := hexport
      rw [hanswer, hmismatch]
      simp
    · obtain ⟨f', hasked⟩ := asked_of_error (v := v) hf
      have hanswer : answer = _ := exportFolder_of_refused hne hload hasked
      rw [hanswer]
      exact ⟨⟨f', rfl⟩, List.not_mem_nil⟩
  · have hmanifest : manifest = .error (.notData (.deep what) said) := hread
    have hanswer : answer = (.error (.deep what), []) := exportFolder_of_error hload
    rw [hmanifest, hanswer]
    refine ⟨fun place _ => ⟨fun f hobstructs => ?_, fun hnone => absurd .nested (hnone _)⟩,
      fun f _ => ⟨⟨_, rfl⟩, List.not_mem_nil⟩⟩
    cases hobstructs with
    | nested => rfl
  · have hanswer : answer = _ := exportFolder_of_none hne hload
    rw [hanswer]
    refine ⟨fun place hplace => ⟨fun f hobstructs => absurd hobstructs (hnone f), fun _ => ?_⟩,
      fun f hf => ?_⟩
    · rw [hplace]
      exact ⟨rfl, iff_of_false hnotices fun ⟨fields, hfields, _⟩ => hobject fields hfields⟩
    · rw [hf]
      exact ⟨⟨f, rfl⟩, hnotices⟩

/-- A tree with nothing but a manifest. -/
def manifestTree (contents : String) : FileTree where
  files := [([fileName], Utf8.encode contents.toList)]

/-- A manifest whose entry is a number stands in the way of a folder. One that spells the folder in
another way does not, and is no mismatch. -/
theorem exportFolder_asked_number :
    exportFolder (manifestTree "\x7b\"l10n\": 5\x7d") [] (.ofPlace []) (some "out") =
        (.error .notText, []) ∧
      (exportFolder (manifestTree "\x7b\"l10n\": \"./out/\"\x7d") [] (.ofPlace [])
        (some "out")).1 = .ok (some ["out"]) ∧
      mismatchNotice ∉ (exportFolder (manifestTree "\x7b\"l10n\": \"./out/\"\x7d") []
        (.ofPlace []) (some "out")).2 := by
  have hplace : resolve [] (.ofPlace []) "out" = .ok ["out"] := rfl
  constructor
  · have hread : (manifestTree "\x7b\"l10n\": 5\x7d").readData []
        (.ofPlace [] ++ Path.ofText fileName) = .ok (.object [("l10n", .integer 5)]) := by
      decide +kernel
    obtain ⟨hasked, -⟩ := exportFolder_asked (manifestTree "\x7b\"l10n\": 5\x7d") [] (.ofPlace [])
      (by decide : ("out" : Text) ≠ []) Json.usualNesting
    exact (hasked ["out"] hplace).1 _ (hread ▸ .notText rfl rfl fun own => Json.noConfusion)
  · have hread : (manifestTree "\x7b\"l10n\": \"./out/\"\x7d").readData []
        (.ofPlace [] ++ Path.ofText fileName) = .ok (.object [("l10n", .string "./out/")]) := by
      decide +kernel
    have hown : resolve [] (.ofPlace []) "./out/" = .ok ["out"] := rfl
    obtain ⟨hasked, -⟩ := exportFolder_asked (manifestTree "\x7b\"l10n\": \"./out/\"\x7d") []
      (.ofPlace []) (by decide : ("out" : Text) ≠ []) Json.usualNesting
    obtain ⟨hanswer, hnotice⟩ := (hasked ["out"] hplace).2 fun f hobstructs => by
      rw [hread] at hobstructs
      cases hobstructs with
      | notObject _ kind => exact kind _ rfl
      | notText hentry _ kind =>
        cases hentry
        exact kind _ rfl
      | noPath hentry _ fault =>
        cases hentry
        cases hown.symm.trans fault
    refine ⟨hanswer, fun h => ?_⟩
    obtain ⟨fields, hfields, hnames⟩ := hnotice.mp h
    obtain rfl := Json.object.inj (Except.ok.inj (hread.symm.trans hfields))
    exact hnames ⟨"./out/", rfl, by decide, hown⟩

end Localization.Manifest
