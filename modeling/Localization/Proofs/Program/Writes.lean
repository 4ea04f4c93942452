import Localization.Proofs.File.Written
import Localization.Proofs.Program.Keeps
import Localization.Proofs.Result

/-! Texts that are written to files one after the other, up to the first that cannot be written. -/

namespace Localization

/-- What is put at which place when a text is written to the file that a path leads to. -/
def PutBy (o : Path × Text) (w : Place × List UInt8) : Prop :=
  w.1 = FileTree.target [] o.1 ∧ ∃ cs, o.2 = .ofChars cs ∧ w.2 = Utf8.encode cs

/-- How writing a text to the file that a path leads to fails, and what it has put there by then. -/
inductive Spoilt (o : Path × Text) : Failure → List (Place × List UInt8) → Prop
  | unopened (fault : FileFault) : Spoilt o (.write o.1 fault) []
  /-- The file is opened, and so is empty, before its text turns out to have no bytes. -/
  | unencodable (h : o.2.toChars? = none) :
    Spoilt o (.unencodable o.1) [(FileTree.target [] o.1, [])]

/-- Outputs one of which is not written: the ones before it are, and nothing else is. -/
def StopsAt (outputs : List (Path × Text)) (f : Failure) (ws : List (Place × List UInt8)) : Prop :=
  ∃ done o rest vs more, outputs = done ++ o :: rest ∧ List.Forall₂ PutBy done vs ∧
    Spoilt o f more ∧ ws = vs ++ more

/-- What is put before writing stops is put where an output is meant to be. -/
theorem StopsAt.place_of_mem {outputs : List (Path × Text)} {f : Failure}
    {ws : List (Place × List UInt8)} (h : StopsAt outputs f ws) {w : Place × List UInt8}
    (hw : w ∈ ws) : ∃ o ∈ outputs, w.1 = FileTree.target [] o.1 := by
  obtain ⟨done, o, rest, vs, more, rfl, hdone, hspoilt, rfl⟩ := h
  rcases List.mem_append.mp hw with hw | hw
  · obtain ⟨p, hp, hput⟩ := exists_of_forall₂ hdone.flip w hw
    exact ⟨p, by simp [hp], hput.1⟩
  · cases hspoilt with
    | unopened fault => cases hw
    | unencodable ht =>
      obtain rfl := List.mem_singleton.mp hw
      exact ⟨o, by simp, rfl⟩

namespace Task

theorem after_writeText (o : Path × Text) (w : Workspace) :
    (∃ v w', (writeText o.1 o.2).after w = (.ok (), w') ∧ PutBy o v ∧
        FileTree.Written [v] w.tree w'.tree) ∨
      ∃ f ws w', (writeText o.1 o.2).after w = (.error f, w') ∧ Spoilt o f ws ∧
        FileTree.Written ws w.tree w'.tree := by
  cases hwrite : w.tree.write [] o.1 (Utf8.encode (o.2.toChars?.getD [])) with
  | mk tree r =>
    have hr : (w.tree.write [] o.1 (Utf8.encode (o.2.toChars?.getD []))).2 = r :=
      congrArg Prod.snd hwrite
    cases r with
    | error fault =>
      have hfiles := FileTree.write_error hr
      rw [hwrite] at hfiles
      exact .inr ⟨_, _, _, after_writeText_error hwrite, .unopened fault, .of_files hfiles⟩
    | ok u =>
      have hwritten := FileTree.Written.of_write hr
      rw [hwrite] at hwritten
      have hafter := after_writeText_ok hwrite
      cases ht : o.2.toChars? with
      | none =>
        rw [ht] at hafter hwritten
        exact .inr ⟨_, _, _, hafter, .unencodable ht, hwritten⟩
      | some cs =>
        rw [ht] at hafter hwritten
        exact .inl ⟨_, _, hafter, ⟨rfl, cs, Text.toChars?_eq_some_iff.mp ht, rfl⟩, hwritten⟩

/-- Outputs that are written one after the other, each by a step that comes to its path. -/
theorem after_writeAll {α : Type} {write : α → Task Path} (output : α → Path × Text) {as : List α}
    (hwrite : ∀ a ∈ as, write a = do writeText (output a).1 (output a).2; return (output a).1)
    (w : Workspace) :
    (∃ ws w', (as.mapM write).after w = (.ok (as.map fun a => (output a).1), w') ∧
        List.Forall₂ PutBy (as.map output) ws ∧ FileTree.Written ws w.tree w'.tree) ∨
      ∃ f ws w', (as.mapM write).after w = (.error f, w') ∧ StopsAt (as.map output) f ws ∧
        FileTree.Written ws w.tree w'.tree := by
  induction as generalizing w with
  | nil => exact .inl ⟨[], w, rfl, .nil, .of_files rfl⟩
  | cons a as ih =>
    rw [List.mapM_cons, hwrite a (by simp)]
    obtain ⟨v, w', hafter, hv, hwritten⟩ | ⟨f, vs, w', hafter, hspoilt, hwritten⟩ :=
      after_writeText (output a) w
    · simp only [after_bind, hafter, after_pure]
      obtain ⟨ws, w'', hrest, hws, hmore⟩ | ⟨f, ws, w'', hrest, hstops, hmore⟩ :=
        ih (fun b hb => hwrite b (List.mem_cons_of_mem _ hb)) w'
      · exact .inl ⟨v :: ws, w'', by simp [hrest], .cons hv hws, hwritten.trans hmore⟩
      · obtain ⟨done, o, rest, vs, more, houtputs, hdone, hspoilt, rfl⟩ := hstops
        refine .inr ⟨f, v :: (vs ++ more), w'', by simp [hrest], ?_, hwritten.trans hmore⟩
        exact ⟨output a :: done, o, rest, v :: vs, more, by simp [houtputs], .cons hv hdone,
          hspoilt, rfl⟩
    · simp only [after_bind, hafter]
      exact .inr ⟨f, vs, w', rfl, ⟨[], output a, as.map output, [], vs, rfl, .nil, hspoilt, rfl⟩,
        hwritten⟩

end Task

end Localization
