import Localization.Program.Workspace
import Localization.Proofs.File

/-! Steps of commands that change no file: reading, finding, giving notice, and whatever is made of
such steps. What a command does before it writes is of this kind. -/

namespace Localization.Task

variable {α β : Type}

/-- What a step comes to, with the workspace that it leaves. -/
def after (x : Task α) (w : Workspace) : Except Failure α × Workspace := x.run w

@[simp] theorem after_pure (a : α) (w : Workspace) : (pure a : Task α).after w = (.ok a, w) := rfl

@[simp] theorem after_throw (e : Failure) (w : Workspace) :
    (throw e : Task α).after w = (.error e, w) := rfl

theorem after_get (w : Workspace) : (getThe Workspace : Task Workspace).after w = (.ok w, w) := rfl

theorem after_set (w w' : Workspace) : (set w' : Task PUnit).after w = (.ok (), w') := rfl

theorem after_say (ns : List Notice) (w : Workspace) :
    (say ns).after w = (.ok (), { w with notices := w.notices ++ ns }) := rfl

theorem after_find (s : Surroundings) (k : FileKind) (paths : List Text) (w : Workspace) :
    (find s k paths).after w = (.ok (Discovery.find w.tree s.working k paths), w) := rfl

theorem after_bind (x : Task α) (f : α → Task β) (w : Workspace) :
    (x >>= f).after w = match x.after w with
      | (.ok a, w') => (f a).after w'
      | (.error e, w') => (.error e, w') := by
  have hbind : (x >>= f).after w =
      match x.after w with | (r, w') => ExceptT.bindCont f r w' := rfl
  rw [hbind]
  obtain ⟨r | a, w'⟩ := x.after w <;> rfl

/-- A step that changes no file and does not fail for the text that it writes. -/
structure Keeps (x : Task α) : Prop where
  files (w : Workspace) : (x.after w).2.tree.files = w.tree.files
  encodable (w : Workspace) (p : Path) : (x.after w).1 ≠ .error (.unencodable p)

namespace Keeps

theorem pure (a : α) : Keeps (Pure.pure a) := ⟨fun _ => rfl, fun _ _ => by simp⟩

theorem throw {e : Failure} (he : ∀ p, e ≠ .unencodable p) : Keeps (throw e : Task α) :=
  ⟨fun _ => rfl, fun _ p => by simpa using he p⟩

theorem get : Keeps (getThe Workspace : Task Workspace) :=
  ⟨fun _ => rfl, fun w _ => by simp only [after_get, ne_eq, reduceCtorEq, not_false_eq_true]⟩

theorem bind {x : Task α} {f : α → Task β} (hx : Keeps x) (hf : ∀ a, Keeps (f a)) :
    Keeps (x >>= f) := by
  constructor
  · intro w
    have hfiles := hx.files w
    rw [after_bind]
    split
    · rename_i a w' hafter
      rw [hafter] at hfiles
      rw [(hf a).files w', hfiles]
    · rename_i e w' hafter
      rwa [hafter] at hfiles
  · intro w p
    have hencodable := hx.encodable w p
    rw [after_bind]
    split
    · rename_i a w' hafter
      exact (hf a).encodable w' p
    · rename_i e w' hafter
      rw [hafter] at hencodable
      simpa using hencodable

theorem mapM {f : α → Task β} {as : List α} (hf : ∀ a, Keeps (f a)) : Keeps (as.mapM f) := by
  induction as with
  | nil => exact pure []
  | cons a as ih =>
    rw [List.mapM_cons]
    exact bind (hf a) fun b => bind ih fun bs => pure (b :: bs)

theorem ofExcept {ε : Type} {failure : ε → Failure} (r : Except ε α)
    (h : ∀ e p, failure e ≠ .unencodable p) : Keeps (Task.ofExcept failure r) := by
  cases r with
  | ok a => exact pure a
  | error e => exact throw (h e)

theorem say (ns : List Notice) : Keeps (Task.say ns) :=
  ⟨fun _ => rfl, fun w _ => by simp only [after_say, ne_eq, reduceCtorEq, not_false_eq_true]⟩

theorem find (s : Surroundings) (k : FileKind) (paths : List Text) :
    Keeps (Task.find s k paths) :=
  bind get fun _ => pure _

theorem readText (p : Path) : Keeps (Task.readText p) :=
  bind get fun w => ofExcept (w.tree.readText [] p) (by simp)

theorem readBundle (p : Path) : Keeps (Task.readBundle p) := by
  apply bind get
  intro w
  apply bind (ofExcept (w.tree.readData [] p) (by simp))
  intro v
  split
  · exact pure _
  · exact throw (by simp)

end Keeps

section Writing

variable {p : Path} {t : Text} {w : Workspace} {tree : FileTree}

theorem after_writeText_error {fault : FileFault}
    (h : w.tree.write [] p (Utf8.encode (t.toChars?.getD [])) = (tree, .error fault)) :
    (writeText p t).after w = (.error (.write p fault), { w with tree }) := by
  simp only [writeText, after_bind, after_get, after_set, h]
  rfl

/-- The file is written before it turns out whether its text can be encoded. -/
theorem after_writeText_ok
    (h : w.tree.write [] p (Utf8.encode (t.toChars?.getD [])) = (tree, .ok ())) :
    (writeText p t).after w =
      (if t.toChars?.isNone then .error (.unencodable p) else .ok (), { w with tree }) := by
  simp only [writeText, after_bind, after_get, after_set, h]
  cases t.toChars? <;> rfl

end Writing

end Localization.Task
