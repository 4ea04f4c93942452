import Localization.Program.Outcome
import Localization.Proofs.Program.Keeps

/-! Failed runs of the commands that write a single file. All that can fail comes before the file is
opened, except that its text cannot be encoded: by then the file is empty. -/

namespace Localization

/-- How a failure leaves the files: as they were, unless text could not be encoded. Then the file
that the text was meant for is there, and empty. -/
def Failure.Leaves (f : Failure) (before after : FileTree) : Prop :=
  match f with
  | .unencodable p => ∀ q, after.contents? q =
      if q = FileTree.target [] p then some [] else before.contents? q
  | _ => ∀ q, after.contents? q = before.contents? q

theorem Failure.leaves_of_files {f : Failure} {before after : FileTree}
    (hf : ∀ p, f ≠ .unencodable p) (h : after.files = before.files) : f.Leaves before after := by
  have hsame : ∀ q, after.contents? q = before.contents? q := FileTree.contents?_congr h
  cases f with
  | unencodable p => exact absurd rfl (hf p)
  | _ => exact hsame

/-- No file is changed exactly if there was no text that could not be encoded, or its file was there
and empty before. -/
theorem Failure.Leaves.unchanged_iff {f : Failure} {before after : FileTree}
    (h : f.Leaves before after) : (∀ q, after.contents? q = before.contents? q) ↔
      ∀ p, f = .unencodable p → before.contents? (FileTree.target [] p) = some [] := by
  constructor
  · rintro hsame p rfl
    rw [← hsame, h (FileTree.target [] p), if_pos rfl]
  · intro hempty
    cases f with
    | unencodable p =>
      intro q
      rw [h q]
      split
      · rename_i hq
        rw [hq, hempty p rfl]
      · rfl
    | _ => exact h

namespace Task

variable {α β : Type}

/-- A step that leaves the files as its failure says, if it fails. -/
def Spares (x : Task α) : Prop :=
  ∀ w f, (x.after w).1 = .error f → f.Leaves w.tree (x.after w).2.tree

theorem Keeps.spares {x : Task α} (hx : Keeps x) : Spares x := by
  intro w f hf
  apply Failure.leaves_of_files
  · rintro p rfl
    exact hx.encodable w p hf
  · exact hx.files w

theorem Spares.bind {x : Task α} {f : α → Task β} (hx : Keeps x) (hf : ∀ a, Spares (f a)) :
    Spares (x >>= f) := by
  intro w e he
  have hfiles := hx.files w
  have hspares := hx.spares w
  rw [after_bind] at he ⊢
  cases hafter : x.after w with
  | mk r w' =>
    cases r with
    | error _ =>
      simp only [hafter] at he hspares ⊢
      obtain rfl := Except.error.inj he
      exact hspares _ rfl
    | ok a =>
      simp only [hafter] at he hfiles ⊢
      have hsame : ∀ q, w'.tree.contents? q = w.tree.contents? q := FileTree.contents?_congr hfiles
      have hleaves := hf a w' e he
      cases e <;> simpa only [Failure.Leaves, hsame] using hleaves

/-- Writing is the last step that can fail. -/
theorem Spares.writeText (p : Path) (t : Text) (a : α) :
    Spares (Task.writeText p t >>= fun _ => pure a) := by
  intro w f hf
  rw [after_bind] at hf ⊢
  cases hwrite : w.tree.write [] p (Utf8.encode (t.toChars?.getD [])) with
  | mk tree r =>
    cases r with
    | error fault =>
      have hfiles := FileTree.write_error (congrArg Prod.snd hwrite)
      rw [hwrite] at hfiles
      simp only [after_writeText_error hwrite] at hf ⊢
      obtain rfl := Except.error.inj hf
      exact Failure.leaves_of_files (by simp) hfiles
    | ok u =>
      have hput := FileTree.write_ok (congrArg Prod.snd hwrite)
      rw [hwrite] at hput
      simp only [after_writeText_ok hwrite] at hf ⊢
      cases ht : t.toChars? with
      | some cs => simp [ht] at hf
      | none =>
        simp only [ht, Option.isNone_none, if_true] at hf hput ⊢
        obtain rfl := Except.error.inj hf
        exact hput

end Task

namespace Commands

open Localization.Task

theorem keeps_readScript (place : Place) : Keeps (readScript place) :=
  .bind (.readText _) fun _ => .pure _

theorem keeps_readNamed (place : Place) : Keeps (readNamed place) := by
  unfold readNamed
  dsimp only
  split
  · exact .throw (by simp)
  · exact .bind (.readBundle _) fun _ => .pure _

theorem keeps_resolve (s : Surroundings) (written : Text) : Keeps (resolve s written) :=
  .ofExcept _ (by simp)

theorem keeps_exchangeText (language : Text) (bundles : Fields Bundle) :
    Keeps (exchangeText language bundles) := by
  apply Keeps.bind (.ofExcept _ (by simp))
  intro document
  split
  · exact .pure _
  · exact .throw (by simp)

theorem harvestFailure_ne (e : Script.HarvestError) (p : Path) :
    harvestFailure e ≠ .unencodable p := by
  cases e <;> simp [harvestFailure]

theorem spares_extract (s : Surroundings) (paths : List Text) (outDir : Option Text)
    (literals : Bool) : Spares (extract s paths outDir literals) := by
  apply Spares.bind (.find s .script paths)
  intro found
  split
  · exact (Keeps.pure _).spares
  apply Spares.bind (.say _)
  intro _
  apply Spares.bind (.mapM keeps_readScript)
  intro scripts
  split
  rename_i harvested notices _
  apply Spares.bind (.say notices)
  intro _
  apply Spares.bind (.ofExcept harvested harvestFailure_ne)
  intro bundle
  dsimp only
  split
  · exact (Keeps.pure _).spares
  apply Spares.bind .get
  intro w
  apply Spares.bind (.say _)
  intro _
  apply Spares.bind (.ofExcept _ (by simp))
  rintro (_ | folder)
  · exact (Keeps.pure _).spares
  · exact Spares.writeText _ _ _

theorem spares_writeExchange (s : Surroundings) (paths : List Text) (outFile language : Text) :
    Spares (writeExchange s paths outFile language) := by
  apply Spares.bind (.find s .bundle paths)
  intro found
  apply Spares.bind (.mapM keeps_readNamed)
  intro bundles
  dsimp only
  split
  · exact (Keeps.pure _).spares
  apply Spares.bind (.say _)
  intro _
  apply Spares.bind (keeps_exchangeText language _)
  intro t
  apply Spares.bind (keeps_resolve s outFile)
  intro output
  exact Spares.writeText _ _ _

end Commands

/-- The commands that write one file, after all else is done. -/
inductive CommandLine.Command.WritesOne : CommandLine.Command → Prop
  | extract (paths : List Text) (outDir : Option Text) (literals : Bool) :
    WritesOne (.extract paths outDir literals)
  | writeExchange (paths : List Text) (outFile language : Text) :
    WritesOne (.writeExchange paths outFile language)

theorem Commands.spares_run (s : Surroundings) {c : CommandLine.Command} (h : c.WritesOne) :
    (Commands.run s c).Spares := by
  cases h with
  | extract paths outDir literals => exact spares_extract s paths outDir literals
  | writeExchange paths outFile language => exact spares_writeExchange s paths outFile language

namespace Program

/-- A failed run of a command that writes one file leaves every file as it was, and makes none,
except that text which cannot be encoded leaves its file empty. So nothing is changed exactly if
that was not the failure, or the file was there and empty before. -/
theorem run_failed (s : Surroundings) (tree : FileTree) {arguments : List Text}
    {i : CommandLine.Invocation} (hi : CommandLine.Invocation.ofArguments arguments = .ok i)
    (hcommand : i.command.WritesOne) (hexit : (run s tree arguments).exitCode = 1) :
    ∃ f, (run s tree arguments).ending = .failed f ∧
      f.Leaves tree (run s tree arguments).workspace.tree ∧
      ((∀ p, (run s tree arguments).workspace.tree.contents? p = tree.contents? p) ↔
        ∀ p, f = .unencodable p → tree.contents? (FileTree.target [] p) = some []) := by
  have hspares := Commands.spares_run s hcommand { tree }
  have hrun : run s tree arguments = match (Commands.run s i.command).after { tree } with
      | (.ok report, workspace) => { ending := .done report, level := i.level, workspace }
      | (.error f, workspace) => { ending := .failed f, level := i.level, workspace } := by
    rw [run, hi]
    rfl
  rw [hrun] at hexit ⊢
  cases hafter : (Commands.run s i.command).after { tree } with
  | mk r workspace =>
    simp only [hafter] at hexit hspares ⊢
    cases r with
    | ok report => simp [Outcome.exitCode] at hexit
    | error f => exact ⟨f, rfl, hspares f rfl, (hspares f rfl).unchanged_iff⟩

/-- Surroundings for a run that asks for nothing. -/
def offline : Surroundings where
  azure _ := .unreachable []
  aws _ := .error (.unreachable [])

/-- A folder with a bundle, in which a lone surrogate is written as an escape, and a document. -/
def surrogateTree : FileTree where
  files := [(["b.l10n.json"], Utf8.encode "\x7b\"a\": \"\\ud800\"\x7d".toList),
    (["b.xlf"], [60])]

/-- A message with a lone surrogate costs the document that was there. -/
theorem run_failed_surrogate :
    let o := run offline surrogateTree ["generate-xlf", "b.l10n.json", "-o", "b.xlf"]
    o.exitCode = 1 ∧ surrogateTree.contents? ["b.xlf"] = some [60] ∧
      o.workspace.tree.contents? ["b.xlf"] = some [] ∧
      ∃ p, o.ending = .failed (.unencodable p) := by
  intro o
  have hi : ∃ i, CommandLine.Invocation.ofArguments ["generate-xlf", "b.l10n.json", "-o", "b.xlf"] =
      .ok i ∧ i.command = .writeExchange ["b.l10n.json"] "b.xlf" "en" :=
    ⟨_, rfl, by decide +kernel⟩
  have hexit : o.exitCode = 1 := by decide +kernel
  have hbefore : surrogateTree.contents? ["b.xlf"] = some [60] := by decide +kernel
  have hafter : o.workspace.tree.contents? ["b.xlf"] = some [] := by decide +kernel
  obtain ⟨i, hi, hcommand⟩ := hi
  obtain ⟨f, hf, -, hiff⟩ := run_failed offline surrogateTree hi
    (hcommand ▸ .writeExchange ..) hexit
  refine ⟨hexit, hbefore, hafter, ?_⟩
  by_contra hother
  have hsame := hiff.mpr fun p hp => absurd ⟨p, hp ▸ hf⟩ hother
  rw [hsame ["b.xlf"], hbefore] at hafter
  exact absurd hafter (by decide)

end Program

end Localization
