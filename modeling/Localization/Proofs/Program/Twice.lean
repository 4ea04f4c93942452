import Localization.Proofs.File.Beside
import Localization.Proofs.Program.Outputs

/-! Runs that are repeated. A command that reads files of the kind that it searches for, and writes
files that no search for that kind takes, does the same in every tree that has what one tree has and
such files besides. The tree that it leaves is one of these, and so doing it once more changes
nothing. -/

namespace Localization

open FileTree (Written)
open Discovery (Extends Unsought)

namespace Naming

/-- A language that makes no name of a translation that of a bundle. -/
structure SetsApart (language : Text) : Prop where
  isName : Path.IsName language
  ne : language ≠ Text.ofString "l10n"
  not_suffix : ¬ Text.ofString ".l10n" <:+ language

variable {place : Place} {name language : Text}

/-- What stands before a language, and the language, do not end like the name of a bundle. -/
theorem SetsApart.not_suffix_append (h : SetsApart language) (text : Text) :
    ¬ Text.ofString ".l10n" <:+ text ++ .char '.' :: language := by
  have hcons : Text.ofString ".l10n" = .char '.' :: Text.ofString "l10n" := by decide
  rintro ⟨rest, hrest⟩
  rw [List.append_cons, List.append_eq_append_iff] at hrest
  obtain ⟨more, hmore, hword⟩ | ⟨more, -, hlanguage⟩ := hrest
  · -- The word ends within the language, or the dot before the language is part of it.
    rcases List.eq_nil_or_concat more with rfl | ⟨init, last, rfl⟩
    · exact h.not_suffix ⟨[], hword⟩
    · rw [List.concat_eq_append, ← List.append_assoc] at hmore
      obtain rfl := List.singleton_inj.mp (List.append_inj' hmore rfl).2
      rw [hcons, List.concat_eq_append, List.append_assoc, List.singleton_append] at hword
      cases init with
      | nil => exact h.ne (List.cons.inj hword).2.symm
      | cons _ init =>
        have hdot : CodePoint.char '.' ∈ Text.ofString "l10n" := by
          rw [(List.cons.inj hword).2]
          simp
        exact absurd hdot (by decide)
  · exact h.not_suffix ⟨more, hlanguage.symm⟩

/-- No translation has the name of the bundle of a package's own description: that of a package's
own bundle is longer, and that of another one has a digit. -/
theorem translatedName_ne_packageBundle (bundle language : Text) :
    translatedName bundle language ≠ FileKind.packageBundle := by
  intro h
  rw [translatedName] at h
  split at h
  · rename_i hpackage
    have hlength := congrArg List.length h
    simp only [hpackage, List.length_append] at hlength
    have hshort : FileKind.packageBundle.length < packageName.length +
        (Text.ofString ".nls.").length + (Text.ofString ".json").length := by decide
    omega
  · have hdigit : CodePoint.char '1' ∈ FileKind.packageBundle := by
      rw [← h]
      simp only [List.mem_append]
      exact .inl (.inl (.inr (by decide)))
    exact absurd hdigit (by decide)

theorem not_admits_translatedName (h : SetsApart language) (bundle : Text) :
    FileKind.bundle.admits (translatedName bundle language) = false := by
  rw [FileKind.admits, Bool.or_eq_false_iff, decide_eq_false_iff_not, ← Bool.not_eq_true,
    List.isSuffixOf_iff_suffix]
  refine ⟨fun hsuffix => ?_, translatedName_ne_packageBundle bundle language⟩
  rw [translatedName_eq] at hsuffix
  have hword : Text.ofString ".l10n" ++ Text.ofString ".json" <:+
      (stem bundle ++ .char '.' :: language) ++ Text.ofString ".json" := hsuffix
  exact h.not_suffix_append _ ((List.suffix_append_inj_of_length_eq rfl).mp hword).1

theorem unsought_translatedName (h : SetsApart language) (bundle : Text) :
    Unsought .bundle (translatedName bundle language) where
  not_admits := not_admits_translatedName h bundle
  ne_here := translatedName_ne bundle language (by decide)
  ne_above := translatedName_ne bundle language (by decide)

theorem mem_of_mem_before {word t : Text} {p : CodePoint} (h : p ∈ before word t) : p ∈ t := by
  induction t with
  | nil => exact h
  | cons q t ih =>
    rw [before] at h
    split at h
    · cases h
    · rw [List.mem_cons] at h ⊢
      exact h.imp_right ih

theorem isName_of_bundleName? (hplace : ∀ n ∈ place, Path.Proper n)
    (h : bundleName? (.ofPlace place) = some name) : Path.IsName name := by
  have hlast : Path.IsName (Path.ofPlace place).name := by
    rw [Path.name, Path.ofPlace]
    cases hlast : place.getLast? with
    | none => exact fun p hp => absurd hp List.not_mem_nil
    | some n => exact (hplace n (List.mem_of_getLast? hlast)).isName
  rw [bundleName?] at h
  split at h
  · obtain rfl := Option.some.inj h
    decide
  · split at h
    · obtain rfl := Option.some.inj h
      exact fun p hp => hlast p (mem_of_mem_before hp)
    · cases h

end Naming

section Found

variable {base t : FileTree} {working place : Place} {paths : List Text} {language : Text}

/-- The translation of a bundle that is found is written beside it, under a name that is not
sought. -/
theorem Naming.exists_beside (hbase : base.WellNamed)
    (hplace : place ∈ Discovery.find base working .bundle paths) (hlanguage : SetsApart language) :
    ∃ folder n, beside place language = .ofPlace (folder ++ [n]) ∧
      base.at? folder = some .folder ∧ Path.above ∉ folder ∧ Unsought .bundle n := by
  have hfile := Discovery.at?_of_mem_find hplace
  have hproper := hbase.proper_of_at? hfile
  obtain ⟨name, hname⟩ := bundleName?_of_mem_find hplace
  have hpath := ofText_translatedName (isName_of_bundleName? hproper hname) hlanguage.isName
  rcases List.eq_nil_or_concat place with rfl | ⟨folder, last, rfl⟩
  · cases hfile
  rw [List.concat_eq_append] at *
  refine ⟨folder, translatedName name language, ?_, ?_, ?_, unsought_translatedName hlanguage _⟩
  · rw [beside, hname, Option.getD_some, hpath, Path.ofPlace, Path.parent, List.dropLast_concat]
    rfl
  · exact FileTree.at?_of_append (List.cons_ne_nil last []) (by rw [hfile]; rfl)
  · intro habove
    exact (hproper _ (List.mem_append_left _ habove)).ne_above rfl

/-- A bundle that is found stays what it is. -/
theorem Discovery.Extends.bundleAt_eq (h : Extends .bundle base t) (hbase : base.WellNamed)
    (hplace : place ∈ Discovery.find base working .bundle paths) :
    t.bundleAt place = base.bundleAt place := by
  have hfile := Discovery.at?_of_mem_find hplace
  have hproper := hbase.proper_of_at? hfile
  have hnames : ∀ n ∈ place, n ≠ Path.here ∧ n ≠ Path.above := fun n hn =>
    ⟨(hproper n hn).ne_here, (hproper n hn).ne_above⟩
  have hread : t.read [] (.ofPlace place) = base.read [] (.ofPlace place) := by
    rw [FileTree.read_ofPlace hfile hnames, FileTree.read_ofPlace (h.at?_of_some hfile) hnames,
      h.contents place (Discovery.admits_of_mem_find hplace)]
  rw [FileTree.bundleAt, FileTree.bundleAt, FileTree.readData, FileTree.readData,
    FileTree.readText, FileTree.readText, hread]

end Found

namespace Task

variable {α β : Type} {k : FileKind} {base : FileTree}

/-- A step that does the same in every tree that extends `base`: it comes to the same, and what it
writes is the same and leaves such a tree, or it fails. -/
def Steady (k : FileKind) (base : FileTree) (x : Task α) : Prop :=
  (∃ a ws, ∀ w, Extends k base w.tree → ∃ w', x.after w = (.ok a, w') ∧
    Written ws w.tree w'.tree ∧ Extends k base w'.tree) ∨
  ∀ w, Extends k base w.tree → ∃ f w', x.after w = (.error f, w')

namespace Steady

/-- A step that reads, and reads what is the same. -/
theorem of_reads {x : Task α} {r : FileTree → Except Failure α} (hx : Reads x r)
    (hr : ∀ t, Extends k base t → r t = r base) : Steady k base x := by
  cases hbase : r base with
  | ok a =>
    refine .inl ⟨a, [], fun w hw => ?_⟩
    obtain ⟨hresult, htree⟩ := hx w
    rw [hr w.tree hw, hbase] at hresult
    exact ⟨(x.after w).2, Prod.ext hresult rfl, .of_files (by rw [htree]), htree ▸ hw⟩
  | error f =>
    refine .inr fun w hw => ⟨f, (x.after w).2, Prod.ext ?_ rfl⟩
    rw [(hx w).1, hr w.tree hw, hbase]

theorem pure (a : α) : Steady k base (Pure.pure a : Task α) :=
  of_reads (.pure a) fun _ _ => rfl

/-- A step that goes on from what is read. -/
theorem bind_reads {x : Task α} {r : FileTree → Except Failure α} {f : α → Task β} {a : α}
    (hx : Reads x r) (hr : ∀ t, Extends k base t → r t = .ok a) (hf : Steady k base (f a)) :
    Steady k base (x >>= f) := by
  have hafter (w : Workspace) (hw : Extends k base w.tree) :
      ∃ w', (x >>= f).after w = (f a).after w' ∧ w'.tree = w.tree := by
    obtain ⟨e, w', hresult, -⟩ | ⟨b, w', hresult, hafter, htree⟩ := hx.after_bind f w
    · cases hresult.symm.trans (hr w.tree hw)
    · obtain rfl := Except.ok.inj (hresult.symm.trans (hr w.tree hw))
      exact ⟨w', hafter, htree⟩
  obtain ⟨b, ws, hf⟩ | hf := hf
  · refine .inl ⟨b, ws, fun w hw => ?_⟩
    obtain ⟨w', hsame, htree⟩ := hafter w hw
    rw [hsame, ← htree]
    exact hf w' (htree ▸ hw)
  · refine .inr fun w hw => ?_
    obtain ⟨w', hsame, htree⟩ := hafter w hw
    rw [hsame]
    exact hf w' (htree ▸ hw)

theorem bind {x : Task α} {f : α → Task β} (hx : Steady k base x)
    (hf : ∀ a, Steady k base (f a)) : Steady k base (x >>= f) := by
  obtain ⟨a, ws, hx⟩ | hx := hx
  · obtain ⟨b, vs, hf⟩ | hf := hf a
    · refine .inl ⟨b, ws ++ vs, fun w hw => ?_⟩
      obtain ⟨w₁, hfirst, hwritten, hextends⟩ := hx w hw
      obtain ⟨w₂, hsecond, hmore, hextends⟩ := hf w₁ hextends
      exact ⟨w₂, by rw [after_bind, hfirst]; exact hsecond, hwritten.trans hmore, hextends⟩
    · refine .inr fun w hw => ?_
      obtain ⟨w₁, hfirst, -, hextends⟩ := hx w hw
      obtain ⟨e, w₂, hsecond⟩ := hf w₁ hextends
      exact ⟨e, w₂, by rw [after_bind, hfirst]; exact hsecond⟩
  · refine .inr fun w hw => ?_
    obtain ⟨e, w₁, hfirst⟩ := hx w hw
    exact ⟨e, w₁, by rw [after_bind, hfirst]⟩

theorem mapM {f : α → Task β} {as : List α} (hf : ∀ a ∈ as, Steady k base (f a)) :
    Steady k base (as.mapM f) := by
  induction as with
  | nil => exact pure []
  | cons a as ih =>
    rw [List.mapM_cons]
    obtain ⟨ha, has⟩ := List.forall_mem_cons.mp hf
    exact bind ha fun b => bind (ih has) fun bs => pure (b :: bs)

/-- Writing to a file in a folder that is there, under a name that is not sought. -/
theorem writeText {folder : Place} {n : Text} (hfolder : base.at? folder = some .folder)
    (habove : Path.above ∉ folder) (hn : Unsought k n) (t : Text) :
    Steady k base (Task.writeText (.ofPlace (folder ++ [n])) t) := by
  have hwrite (w : Workspace) (hw : Extends k base w.tree) (bytes : List UInt8) :
      w.tree.write [] (.ofPlace (folder ++ [n])) bytes =
        if base.isFolder (folder ++ [n]) then (w.tree, .error .isFolder)
        else (w.tree.put (folder ++ [n]) bytes, .ok ()) := by
    rw [FileTree.write_ofPlace (hw.at?_of_some hfolder) habove hn.ne_above, hw.isFolder_eq]
  cases hnone : base.isFolder (folder ++ [n]) with
  | true =>
    refine .inr fun w hw => ?_
    have herror := hwrite w hw (Utf8.encode (t.toChars?.getD []))
    rw [hnone, if_pos rfl] at herror
    exact ⟨_, _, after_writeText_error herror⟩
  | false =>
    have hafter (w : Workspace) (hw : Extends k base w.tree) := by
      have hput := hwrite w hw (Utf8.encode (t.toChars?.getD []))
      rw [hnone, if_neg Bool.false_ne_true] at hput
      exact after_writeText_ok hput
    cases ht : t.toChars? with
    | none =>
      simp only [ht, Option.isNone_none, if_true] at hafter
      exact .inr fun w hw => ⟨_, _, hafter w hw⟩
    | some cs =>
      simp only [ht, Option.isNone_some, Option.getD_some] at hafter
      refine .inl ⟨(), [(folder ++ [n], Utf8.encode cs)], fun w hw => ?_⟩
      exact ⟨_, hafter w hw, .of_put _ _ _, hw.put hfolder hn hnone⟩

/-- A step that is done in a tree comes to the same in the tree that it leaves, and changes no file
there. -/
theorem again {x : Task α} (hx : Steady k base x) {w w₁ : Workspace} {a : α}
    (hw : Extends k base w.tree) (h : x.after w = (.ok a, w₁)) :
    Extends k base w₁.tree ∧ ∀ v, v.tree = w₁.tree → ∃ v₁, x.after v = (.ok a, v₁) ∧
      ∀ p, v₁.tree.contents? p = w₁.tree.contents? p := by
  obtain ⟨b, ws, hx⟩ | hx := hx
  · obtain ⟨w₂, hfirst, hwritten, hextends⟩ := hx w hw
    obtain ⟨hb, rfl⟩ := Prod.mk.inj (h.symm.trans hfirst)
    obtain rfl := Except.ok.inj hb
    refine ⟨hextends, fun v hv => ?_⟩
    obtain ⟨v₁, hsecond, hmore, -⟩ := hx v (hv ▸ hextends)
    exact ⟨v₁, hsecond, hwritten.again (hv ▸ hmore)⟩
  · obtain ⟨f, w₂, hfails⟩ := hx w hw
    cases (Prod.mk.inj (h.symm.trans hfails)).1

end Steady

end Task

namespace Commands

open Localization.Task

variable {base : FileTree} {working place : Place} {paths languages : List Text}
  {translate : Bundle → Task (List (Fields Text))}

theorem steady_translateOne (hbase : base.WellNamed)
    (hplace : place ∈ Discovery.find base working .bundle paths)
    (hlanguages : ∀ language ∈ languages, Naming.SetsApart language)
    (htranslate : ∀ b, Steady .bundle base (translate b)) :
    Steady .bundle base (translateOne languages translate place) := by
  obtain ⟨name, hname⟩ := Naming.bundleName?_of_mem_find hplace
  apply Steady.bind (.of_reads (.readBundle place) fun t ht => ht.bundleAt_eq hbase hplace)
  intro b
  apply Steady.bind (htranslate b)
  intro translated
  apply Steady.mapM
  rintro ⟨language, messages⟩ hmem
  show Steady .bundle base (writeTranslated (.ofPlace place) language messages)
  have hlanguage := hlanguages language (List.of_mem_zip hmem).1
  obtain ⟨folder, n, hbeside, hfolder, habove, hn⟩ := Naming.exists_beside hbase hplace hlanguage
  rw [writeTranslated_eq hname, hbeside]
  exact .bind (.writeText hfolder habove hn _) fun _ => .pure _

theorem steady_pseudo (hbase : base.WellNamed) (s : Surroundings) (paths : List Text)
    {language : Text} (hlanguage : Naming.SetsApart language) :
    Steady .bundle base (pseudo s paths language) := by
  apply Steady.bind_reads (Reads.find s .bundle paths) fun t ht => by rw [ht.find_eq]
  apply Steady.bind
  · rw [translateEach_eq]
    refine .bind (.mapM fun place hplace => ?_) fun _ => .pure _
    exact steady_translateOne hbase hplace (by simpa using hlanguage) fun b =>
      .of_reads (.ofExcept .shape _) fun _ _ => rfl
  · exact fun _ => .pure _

end Commands

namespace Program

/-- A translation is never taken for a source, if the language sets its name apart. A run that
writes the bundles of a pseudo language, once it is done, has left the bundles that it found as they
were. The same run then finds the same bundles, is done with the same report, and leaves every file
as the first one left it. -/
theorem run_twice (s : Surroundings) {tree : FileTree} (htree : tree.WellNamed)
    {arguments : List Text} {i : CommandLine.Invocation}
    (hi : CommandLine.Invocation.ofArguments arguments = .ok i) {paths : List Text}
    {language : Text} (hcommand : i.command = .pseudo paths language)
    (hlanguage : Naming.SetsApart language) (hexit : (run s tree arguments).exitCode = 0) :
    let first := run s tree arguments
    let second := run s first.workspace.tree arguments
    Discovery.find first.workspace.tree s.working .bundle paths =
        Discovery.find tree s.working .bundle paths ∧
      (∀ place ∈ Discovery.find tree s.working .bundle paths,
        first.workspace.tree.contents? place = tree.contents? place) ∧
      second.exitCode = 0 ∧ second.ending = first.ending ∧
      ∀ p, second.workspace.tree.contents? p = first.workspace.tree.contents? p := by
  intro first second
  have hsteady : Task.Steady .bundle tree (Commands.run s i.command) := by
    rw [hcommand]
    exact Commands.steady_pseudo htree s paths hlanguage
  cases hafter : (Commands.run s i.command).after { tree } with
  | mk r w =>
    have hfirst : first = _ := run_eq hi hafter
    cases r with
    | error f =>
      rw [show run s tree arguments = first from rfl, hfirst] at hexit
      cases hexit
    | ok report =>
      obtain ⟨hextends, hagain⟩ := hsteady.again (.refl .bundle tree) hafter
      obtain ⟨w', hafter', hsame⟩ := hagain { tree := w.tree } rfl
      have htree : first.workspace.tree = w.tree := by rw [hfirst]
      have hsecond : second = _ := run_eq hi (htree ▸ hafter')
      rw [hsecond, htree, hfirst]
      have hinputs : ∀ place ∈ Discovery.find tree s.working .bundle paths,
          w.tree.contents? place = tree.contents? place := fun place hplace =>
        hextends.contents place (Discovery.admits_of_mem_find hplace)
      exact ⟨hextends.find_eq s.working paths, hinputs, rfl, rfl, hsame⟩

/-- A folder with a bundle. -/
def bundleTree : FileTree where
  files := [(["l10n", "bundle.l10n.json"], Utf8.encode "\x7b\"u\": \"v\"\x7d".toList)]

/-- The pattern fits the name of the translation too, which is there for the second run. -/
theorem run_twice_pattern :
    let first := run offline bundleTree ["generate-pseudo", "l10n/*.json"]
    let second := run offline first.workspace.tree ["generate-pseudo", "l10n/*.json"]
    first.exitCode = 0 ∧
      (first.workspace.tree.contents? ["l10n", "bundle.l10n.qps-ploc.json"]).isSome = true ∧
      Discovery.find first.workspace.tree [] .bundle ["l10n/*.json"] =
        Discovery.find bundleTree [] .bundle ["l10n/*.json"] ∧
      second.exitCode = 0 ∧
      ∀ p, second.workspace.tree.contents? p = first.workspace.tree.contents? p := by
  intro first second
  have hi : ∃ i, CommandLine.Invocation.ofArguments ["generate-pseudo", "l10n/*.json"] = .ok i ∧
      i.command = .pseudo ["l10n/*.json"] "qps-ploc" := ⟨_, rfl, by decide +kernel⟩
  have htree : bundleTree.WellNamed := by decide +kernel
  have hlanguage : Naming.SetsApart "qps-ploc" := ⟨by decide, by decide, by decide⟩
  have hexit : first.exitCode = 0 := by decide +kernel
  have hthere : (first.workspace.tree.contents? ["l10n", "bundle.l10n.qps-ploc.json"]).isSome =
      true := by decide +kernel
  obtain ⟨i, hi, hcommand⟩ := hi
  obtain ⟨hfound, -, hexit', -, hsame⟩ := run_twice offline htree hi hcommand hlanguage hexit
  exact ⟨hexit, hthere, hfound, hexit', hsame⟩

end Program

end Localization
