import Localization.Program.Outcome
import Localization.Proofs.Program.Keeps
import Localization.Proofs.Result

/-! Steps that only look at the files: they leave the tree as it is, and what they come to is told
by the tree alone. Whatever a command does before it writes is such a step. A run comes to what its
command comes to. -/

namespace Localization

/-- The bundle in the file at a place. -/
def FileTree.bundleAt (t : FileTree) (place : Place) : Except Failure Bundle := do
  match ← (t.readData [] (.ofPlace place)).mapError (.read (.ofPlace place)) with
  | .object fields => return fields
  | _ => .error (.notObject (.ofPlace place))

namespace Task

variable {α β : Type}

/-- A step that leaves the tree as it is, and comes to what `r` makes of the tree. -/
def Reads (x : Task α) (r : FileTree → Except Failure α) : Prop :=
  ∀ w, (x.after w).1 = r w.tree ∧ (x.after w).2.tree = w.tree

namespace Reads

theorem pure (a : α) : Reads (Pure.pure a) fun _ => .ok a := fun _ => ⟨rfl, rfl⟩

theorem throw (e : Failure) : Reads (throw e : Task α) fun _ => .error e := fun _ => ⟨rfl, rfl⟩

theorem say (ns : List Notice) : Reads (Task.say ns) fun _ => .ok () := fun _ => ⟨rfl, rfl⟩

theorem ofExcept {ε : Type} (failure : ε → Failure) (x : Except ε α) :
    Reads (Task.ofExcept failure x) fun _ => x.mapError failure := by
  cases x with
  | ok a => exact pure a
  | error e => exact throw (failure e)

/-- A step after one that only reads goes on from the same tree, or the failure is that of the
first. -/
theorem after_bind {x : Task α} {r : FileTree → Except Failure α} (hx : Reads x r)
    (f : α → Task β) (w : Workspace) :
    (∃ e w', r w.tree = .error e ∧ (x >>= f).after w = (.error e, w') ∧ w'.tree = w.tree) ∨
      ∃ a w', r w.tree = .ok a ∧ (x >>= f).after w = (f a).after w' ∧ w'.tree = w.tree := by
  obtain ⟨hresult, htree⟩ := hx w
  rw [Task.after_bind]
  cases hafter : x.after w with
  | mk s w' =>
    rw [hafter] at hresult htree
    cases s with
    | error e => exact .inl ⟨e, w', hresult.symm, rfl, htree⟩
    | ok a => exact .inr ⟨a, w', hresult.symm, rfl, htree⟩

theorem bind {x : Task α} {f : α → Task β} {r : FileTree → Except Failure α}
    {g : α → FileTree → Except Failure β} (hx : Reads x r) (hf : ∀ a, Reads (f a) (g a)) :
    Reads (x >>= f) fun t => r t >>= fun a => g a t := by
  intro w
  dsimp only
  obtain ⟨e, w', hr, hafter, htree⟩ | ⟨a, w', hr, hafter, htree⟩ := hx.after_bind f w
  · rw [hafter, hr]
    exact ⟨rfl, htree⟩
  · obtain ⟨hresult, hsame⟩ := hf a w'
    rw [hafter, hr, hresult, hsame, htree]
    exact ⟨rfl, rfl⟩

theorem mapM {f : α → Task β} {g : α → FileTree → Except Failure β} {as : List α}
    (hf : ∀ a, Reads (f a) (g a)) : Reads (as.mapM f) fun t => as.mapM fun a => g a t := by
  induction as with
  | nil => exact pure []
  | cons a as ih =>
    simp only [List.mapM_cons]
    exact bind (hf a) fun b => bind ih fun bs => pure (b :: bs)

theorem find (s : Surroundings) (k : FileKind) (paths : List Text) :
    Reads (Task.find s k paths) fun t => .ok (Discovery.find t s.working k paths) :=
  fun _ => ⟨rfl, rfl⟩

theorem readText (p : Path) :
    Reads (Task.readText p) fun t => (t.readText [] p).mapError (.read p) :=
  fun w => ofExcept (.read p) (w.tree.readText [] p) w

theorem readBundle (place : Place) :
    Reads (Task.readBundle (.ofPlace place)) fun t => t.bundleAt place := by
  intro w
  refine bind (g := fun v _ => match v with
    | .object fields => .ok fields
    | _ => .error (.notObject (.ofPlace place)))
    (ofExcept (.read _) (w.tree.readData [] (.ofPlace place))) ?_ w
  intro v
  cases v with
  | object fields => exact pure fields
  | _ => exact throw _

theorem sendAzure (run : Provider.Run Provider.Azure.Request) :
    Reads (Task.sendAzure run) fun _ => run.result.mapError .provider :=
  fun _ => ofExcept .provider run.result _

theorem sendAws (run : Provider.Run Provider.Aws.Request) (sessions : List Provider.Aws.Session) :
    Reads (Task.sendAws run sessions) fun _ => run.result.mapError .provider :=
  fun _ => ofExcept .provider run.result _

end Reads

end Task

theorem Commands.reads_resolve (s : Surroundings) (written : Text) :
    Task.Reads (resolve s written) fun _ =>
      (Place.resolve s.working (.ofText written)).mapError .name :=
  .ofExcept .name _

namespace Program

def Ending.ofResult : Except Failure Json → Ending
  | .ok report => .done report
  | .error f => .failed f

theorem run_eq {s : Surroundings} {tree : FileTree} {arguments : List Text}
    {i : CommandLine.Invocation} (hi : CommandLine.Invocation.ofArguments arguments = .ok i)
    {r : Except Failure Json} {w : Workspace}
    (hafter : (Commands.run s i.command).after { tree } = (r, w)) :
    run s tree arguments = { ending := .ofResult r, level := i.level, workspace := w } := by
  have hrun : run s tree arguments = match (Commands.run s i.command).after { tree } with
      | (.ok report, workspace) => { ending := .done report, level := i.level, workspace }
      | (.error f, workspace) => { ending := .failed f, level := i.level, workspace } := by
    rw [run, hi]
    rfl
  rw [hrun, hafter]
  cases r <;> rfl

theorem ending_eq {s : Surroundings} {tree : FileTree} {arguments : List Text}
    {i : CommandLine.Invocation} (hi : CommandLine.Invocation.ofArguments arguments = .ok i)
    {r : Except Failure Json} (hresult : ((Commands.run s i.command).after { tree }).1 = r) :
    (run s tree arguments).ending = .ofResult r := by
  have hafter : (Commands.run s i.command).after { tree } =
      (r, ((Commands.run s i.command).after { tree }).2) := Prod.ext hresult rfl
  rw [run_eq hi hafter]

end Program

end Localization
