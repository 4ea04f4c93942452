import Localization.Proofs.Script.Forward
import Localization.Script.Grammar.Basic
import Mathlib.Algebra.GroupWithZero.Nat

/-! Sites of a tree, and where they begin. A site is a node that may be read for a message: the
arguments of a call, a template, and whatever else is the second part of a call. A reader lays the
sites of what it reads apart: one at most begins at each offset that it passes over. -/

namespace Localization.Script

/-! The parts of a part of a tree are parts of the tree. -/

namespace Tree

theorem mem_subtrees_self (t : Tree) : t ∈ t.subtrees := by
  cases t <;> exact List.mem_cons_self ..

theorem mem_subtreesOf {t : Tree} {ts : List Tree} :
    t ∈ subtreesOf ts ↔ ∃ c ∈ ts, t ∈ c.subtrees := by
  induction ts with
  | nil => simp [subtreesOf]
  | cons c ts ih => simp [subtreesOf, ih]

theorem mem_subtrees_node {k : Kind} {s : Nat} {t c : Tree} {ts : List Tree} (hc : c ∈ ts)
    (ht : t ∈ c.subtrees) : t ∈ (node k s ts).subtrees :=
  List.mem_cons_of_mem _ (mem_subtreesOf.mpr ⟨c, hc, ht⟩)

mutual

theorem mem_subtrees_trans {t u : Tree} (ht : t ∈ u.subtrees) :
    ∀ root : Tree, u ∈ root.subtrees → t ∈ root.subtrees
  | .leaf _ _ _, hu => by cases List.mem_singleton.mp hu; exact ht
  | .node k s ts, hu => by
    rcases List.mem_cons.mp hu with rfl | hu
    · exact ht
    · exact List.mem_cons_of_mem _ (mem_subtreesOf_trans ht ts hu)

theorem mem_subtreesOf_trans {t u : Tree} (ht : t ∈ u.subtrees) :
    ∀ ts : List Tree, u ∈ subtreesOf ts → t ∈ subtreesOf ts
  | [], hu => by simp [subtreesOf] at hu
  | c :: ts, hu => by
    rcases List.mem_append.mp hu with hu | hu
    · exact List.mem_append_left _ (mem_subtrees_trans ht c hu)
    · exact List.mem_append_right _ (mem_subtreesOf_trans ht ts hu)

end

end Tree

/-! Where sites begin. -/

/-- The kinds of nodes that are sites wherever they stand. -/
def Kind.isSite : Kind → Bool
  | .arguments | .template => true
  | _ => false

/-- How many sites begin at an offset in a part of a tree. -/
class Opens (α : Type) where
  opens : Nat → α → Nat

export Opens (opens)

namespace Tree

/-- Whether the second part of a call begins at an offset, unless it is a site by its kind. -/
def besides (n : Nat) : Kind → List Tree → Nat
  | .call, _ :: t :: _ => if t.kind.isSite = false ∧ t.start = n then 1 else 0
  | _, _ => 0

mutual

def opensAt (n : Nat) : Tree → Nat
  | .leaf k s _ => if k.isSite = true ∧ s = n then 1 else 0
  | .node k s ts =>
    (if k.isSite = true ∧ s = n then 1 else 0) + besides n k ts + opensAtAny n ts

def opensAtAny (n : Nat) : List Tree → Nat
  | [] => 0
  | t :: ts => opensAt n t + opensAtAny n ts

end

end Tree

instance : Opens Tree := ⟨Tree.opensAt⟩

instance {α : Type} [Opens α] : Opens (List α) := ⟨fun n as => (as.map (opens n)).sum⟩

section Opens

variable {n : Nat}

@[simp] theorem opens_nil {α : Type} [Opens α] : opens n ([] : List α) = 0 := rfl

@[simp] theorem opens_cons {α : Type} [Opens α] (a : α) (as : List α) :
    opens n (a :: as) = opens n a + opens n as := by
  simp [opens]

@[simp] theorem opens_append {α : Type} [Opens α] (as bs : List α) :
    opens n (as ++ bs) = opens n as + opens n bs := by
  simp [opens]

@[simp] theorem opens_flatten (tss : List (List Tree)) : opens n tss.flatten = opens n tss := by
  induction tss with
  | nil => rfl
  | cons ts tss ih => rw [List.flatten_cons, opens_append, opens_cons, ih]

theorem opensAtAny_eq (ts : List Tree) : Tree.opensAtAny n ts = opens n ts := by
  induction ts with
  | nil => rfl
  | cons t ts ih => rw [Tree.opensAtAny, ih, opens_cons]; rfl

theorem opens_leaf (k : Kind) (s : Nat) (text : List Char) :
    opens n (Tree.leaf k s text) = if k.isSite = true ∧ s = n then 1 else 0 := rfl

/-- A leaf that is no site opens nothing. -/
@[simp] theorem opens_otherLeaf {k : Kind} (harguments : k ≠ .arguments) (htemplate : k ≠ .template)
    (s : Nat) (text : List Char) : opens n (Tree.leaf k s text) = 0 := by
  have hsite : k.isSite = false := by
    unfold Kind.isSite
    split <;> trivial
  simp [opens_leaf, hsite]

theorem opens_node (k : Kind) (s : Nat) (ts : List Tree) :
    opens n (Tree.node k s ts) =
      (if k.isSite = true ∧ s = n then 1 else 0) + Tree.besides n k ts + opens n ts := by
  rw [← opensAtAny_eq]
  rfl

/-- A node that is neither a site nor a call opens what its parts open. -/
@[simp] theorem opens_other {k : Kind} (harguments : k ≠ .arguments) (htemplate : k ≠ .template)
    (hcall : k ≠ .call) (s : Nat) (ts : List Tree) :
    opens n (Tree.node k s ts) = opens n ts := by
  have hsite : k.isSite = false := by
    unfold Kind.isSite
    split <;> trivial
  have hbesides : Tree.besides n k ts = 0 := by
    unfold Tree.besides
    split <;> trivial
  simp [opens_node, hsite, hbesides]

/-- A call with a site as its second part opens what its parts open. -/
@[simp] theorem opens_call {t : Tree} (ht : t.kind.isSite = true) (s : Nat) (callee : Tree)
    (ts : List Tree) : opens n (Tree.node .call s (callee :: t :: ts)) =
      opens n (callee :: t :: ts) := by
  have hcall : Kind.isSite .call = false := rfl
  simp [opens_node, Tree.besides, ht, hcall]

/-- A site opens at its start, besides what its parts open. -/
@[simp] theorem opens_arguments (s : Nat) (ts : List Tree) :
    opens n (Tree.node .arguments s ts) = (if s = n then 1 else 0) + opens n ts := by
  simp [opens_node, Tree.besides, Kind.isSite]

@[simp] theorem opens_template (s : Nat) (ts : List Tree) :
    opens n (Tree.node .template s ts) = (if s = n then 1 else 0) + opens n ts := by
  simp [opens_node, Tree.besides, Kind.isSite]

end Opens

/-- One for the offsets that are passed over from one cursor to another. -/
def Cursor.passed (c d : Cursor) (n : Nat) : Nat := if c.offset ≤ n ∧ n < d.offset then 1 else 0

theorem Cursor.passed_add {c d e : Cursor} (hcd : c.offset ≤ d.offset) (hde : d.offset ≤ e.offset)
    (n : Nat) : c.passed d n + d.passed e n = c.passed e n := by
  unfold Cursor.passed
  split <;> split <;> split <;> omega

namespace Reader

variable {α β : Type} [Opens α] [Opens β] {held : Nat → Nat}

/-- What a reader gives opens the sites that it was given and one at most at each offset that it
passes over. -/
def Keeps (held : Nat → Nat) (p : Reader α) : Prop :=
  ∀ c a d, p c = some (a, d) → c.offset ≤ d.offset ∧ ∀ n, opens n a ≤ held n + c.passed d n

/-- Whatever a reader gives has a property. -/
def Gives {γ : Type} (P : γ → Prop) (p : Reader γ) : Prop := ∀ c a d, p c = some (a, d) → P a

theorem Gives.pure {γ : Type} {P : γ → Prop} {a : γ} (h : P a) :
    Gives P (Pure.pure a : Reader γ) := by
  intro c b d hread
  obtain ⟨rfl, -⟩ := Prod.mk.inj (Option.some.inj hread)
  exact h

theorem Gives.bind {γ δ : Type} {P : γ → Prop} {p : Reader δ} {f : δ → Reader γ}
    (hf : ∀ a, Gives P (f a)) : Gives P (p >>= f) := by
  intro c b e h
  obtain ⟨a, d, -, he⟩ := bind_eq_some h
  exact hf a d b e he

/-- A reader that is given no sites. -/
abbrev Orderly (p : Reader α) : Prop := Keeps (fun _ => 0) p

namespace Keeps

theorem forward {p : Reader α} (hp : p.Keeps held) : p.Forward := fun c a d h => (hp c a d h).1

theorem pure {a : α} (h : ∀ n, opens n a ≤ held n) : Keeps held (Pure.pure a) := by
  intro c b d hread
  obtain ⟨rfl, rfl⟩ := Prod.mk.inj (Option.some.inj hread)
  exact ⟨Nat.le_refl _, fun n => Nat.le_add_right_of_le (h n)⟩

theorem failure : Keeps held (Alternative.failure : Reader α) := fun _ _ _ h => nomatch h

/-- A reader after one that gives no tree. -/
theorem after {γ : Type} {p : Reader γ} {f : γ → Reader α} (hp : p.Forward)
    (hf : ∀ a, Keeps held (f a)) : Keeps held (p >>= f) := by
  intro c b e h
  obtain ⟨a, d, hd, he⟩ := bind_eq_some h
  have hcd := hp c a d hd
  obtain ⟨hde, hopens⟩ := hf a d b e he
  refine ⟨Nat.le_trans hcd hde, fun n => ?_⟩
  have hpassed := Cursor.passed_add hcd hde n
  have hn := hopens n
  omega

/-- A reader that is given what another one gives, which has a property. -/
theorem bindGiven {P : α → Prop} {p : Reader α} {f : α → Reader β} (hp : p.Orderly)
    (hgives : p.Gives P) (hf : ∀ a, P a → Keeps (fun n => held n + opens n a) (f a)) :
    Keeps held (p >>= f) := by
  intro c b e h
  obtain ⟨a, d, hd, he⟩ := bind_eq_some h
  obtain ⟨hcd, hfirst⟩ := hp c a d hd
  obtain ⟨hde, hsecond⟩ := hf a (hgives c a d hd) d b e he
  refine ⟨Nat.le_trans hcd hde, fun n => ?_⟩
  have hpassed := Cursor.passed_add hcd hde n
  have hn : opens n a ≤ 0 + c.passed d n := hfirst n
  have hm : opens n b ≤ held n + opens n a + d.passed e n := hsecond n
  omega

/-- A reader that is given what another one gives. -/
theorem bind {p : Reader α} {f : α → Reader β} (hp : p.Orderly)
    (hf : ∀ a, Keeps (fun n => held n + opens n a) (f a)) : Keeps held (p >>= f) :=
  bindGiven (P := fun _ => True) hp (fun _ _ _ _ => trivial) fun a _ => hf a

/-- A reader that is given only what another one gives, to which all was given. -/
theorem through {p : Reader α} {f : α → Reader β} (hp : p.Keeps held)
    (hf : ∀ a, Keeps (fun n => opens n a) (f a)) : Keeps held (p >>= f) := by
  intro c b e h
  obtain ⟨a, d, hd, he⟩ := bind_eq_some h
  obtain ⟨hcd, hfirst⟩ := hp c a d hd
  obtain ⟨hde, hsecond⟩ := hf a d b e he
  refine ⟨Nat.le_trans hcd hde, fun n => ?_⟩
  have hpassed := Cursor.passed_add hcd hde n
  have hn := hfirst n
  have hm : opens n b ≤ opens n a + d.passed e n := hsecond n
  omega

theorem mono {held' : Nat → Nat} {p : Reader α} (hp : p.Keeps held) (h : ∀ n, held n ≤ held' n) :
    p.Keeps held' := by
  intro c a d hread
  obtain ⟨hle, hopens⟩ := hp c a d hread
  exact ⟨hle, fun n => Nat.le_trans (hopens n) (Nat.add_le_add_right (h n) _)⟩

theorem orElse {p q : Reader α} (hp : p.Keeps held) (hq : q.Keeps held) : Keeps held (p <|> q) := by
  intro c a d h
  rcases orElse_eq_some h with h | h
  · exact hp c a d h
  · exact hq c a d h

theorem seqRight {γ : Type} {p : Reader γ} {q : Reader α} (hp : p.Forward) (hq : q.Keeps held) :
    Keeps held (p *> q) :=
  after hp fun _ => hq

theorem map {p : Reader α} {f : α → β} (hp : p.Keeps held) (hf : ∀ a n, opens n (f a) ≤ opens n a) :
    Keeps held (f <$> p) := by
  intro c b d h
  obtain ⟨a, ha, rfl⟩ := map_eq_some h
  obtain ⟨hle, hopens⟩ := hp c a d ha
  exact ⟨hle, fun n => Nat.le_trans (hf a n) (hopens n)⟩

end Keeps

namespace Orderly

theorem many {p : Reader α} (hp : p.Orderly) (fuel : Nat) : (Reader.many p fuel).Orderly := by
  induction fuel with
  | zero => exact .pure (by simp)
  | succ fuel ih =>
    intro c as e h
    have hnone : (Pure.pure [] : Reader (List α)).Orderly := .pure (by simp)
    simp only [Reader.many] at h
    split at h
    · exact hnone c as e h
    · rename_i a d hd
      split at h
      · exact hnone c as e h
      · obtain ⟨hcd, hfirst⟩ := hp c a d hd
        split at h
        · rename_i as' e' he
          obtain ⟨rfl, rfl⟩ := Prod.mk.inj (Option.some.inj h)
          obtain ⟨hde, hrest⟩ := ih d as' e' he
          refine ⟨Nat.le_trans hcd hde, fun n => ?_⟩
          have hpassed := Cursor.passed_add hcd hde n
          have hn : opens n a ≤ 0 + c.passed d n := hfirst n
          have hm : opens n as' ≤ 0 + d.passed e' n := hrest n
          rw [opens_cons]
          omega
        · obtain ⟨rfl, rfl⟩ := Prod.mk.inj (Option.some.inj h)
          exact ⟨hcd, fun n => by simpa using hfirst n⟩

theorem listOf {p : Reader α} (hp : p.Orderly) : p.listOf.Orderly :=
  (hp.map (by simp)).orElse (.pure (by simp))

theorem sepBy {p : Reader α} (hp : p.Orderly) (fuel : Nat) (separator : String) :
    (Reader.sepBy fuel separator p).Orderly :=
  .orElse
    (.bind hp fun _ => .bind (many (.seqRight (forward_mark separator) hp) fuel) fun _ =>
      .after ((forward_mark separator).orElse (.pure ())) fun _ => .pure (by simp))
    (.pure (by simp))

/-- A site begins with a mark, and its parts come behind it. -/
theorem site {s : String} (hs : s.toList ≠ []) {f : Nat → Reader Tree}
    (hf : ∀ start, Keeps (fun n => if start = n then 1 else 0) (f start)) :
    Orderly (do let start ← here; mark s; f start) := by
  intro c t e h
  obtain ⟨start, d, hhere, hrest⟩ := bind_eq_some h
  obtain ⟨u, d', hmark, hread⟩ := bind_eq_some hrest
  obtain ⟨rfl, hcd⟩ := here_eq_some hhere
  have hlt := mark_eq_some hmark
  have hpos := List.length_pos_iff.mpr hs
  obtain ⟨hde, hopens⟩ := hf d.offset d' t e hread
  refine ⟨by omega, fun n => ?_⟩
  have hn : opens n t ≤ (if d.offset = n then 1 else 0) + d'.passed e n := hopens n
  unfold Cursor.passed at *
  split at hn <;> split at hn <;> split <;> omega

end Orderly

end Reader

end Localization.Script
