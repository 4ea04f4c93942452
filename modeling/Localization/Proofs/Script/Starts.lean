import Localization.Proofs.Script.Sites
import Mathlib.Data.List.Nodup
import Mathlib.Data.List.Pairwise

/-! If at most one site of a tree begins at each offset, then no two of the nodes that may be read for
a message begin at one offset, and an offset tells these nodes apart. -/

namespace Localization.Script

namespace Tree

/-- The arguments or the template of a node that is a call. -/
def called : Tree → List Tree
  | .node .call _ (_ :: t :: _) => [t]
  | _ => []

/-- The templates in the value of a node that is a markup attribute. -/
def literals : Tree → List Tree
  | .node .markupAttribute _ [.leaf .propertyName _ _, .node .markupExpression _ parts] =>
    parts.filter (·.kind = .template)
  | _ => []

/-- How many trees of a list begin at an offset. -/
def beginning (n : Nat) (ts : List Tree) : Nat := (ts.map start).count n

/-- How many sites that begin at an offset a tree holds ready for the node that it is a part of:
itself, or the templates in a markup expression. -/
def standing (n : Nat) : Tree → Nat
  | .node .markupExpression _ parts => beginning n (parts.filter (·.kind = .template))
  | t => if t.kind.isSite = true ∧ t.start = n then 1 else 0

variable {n : Nat}

@[simp] theorem beginning_nil : beginning n [] = 0 := rfl

@[simp] theorem beginning_append (ts us : List Tree) :
    beginning n (ts ++ us) = beginning n ts + beginning n us := by
  simp [beginning]

theorem beginning_cons (t : Tree) (ts : List Tree) :
    beginning n (t :: ts) = (if t.start = n then 1 else 0) + beginning n ts := by
  simp [beginning, List.count_cons, Nat.add_comm]

theorem standing_node {k : Kind} (hk : k ≠ .markupExpression) (s : Nat) (ts : List Tree) :
    standing n (.node k s ts) = if k.isSite = true ∧ s = n then 1 else 0 := by
  unfold standing
  split
  · cases ‹Tree.node k s ts = _›
    exact absurd rfl hk
  · rfl

/-- A site stands ready. -/
theorem standing_site {t : Tree} (ht : t.kind.isSite = true) :
    standing n t = if t.start = n then 1 else 0 := by
  unfold standing
  split
  · cases ht
  · simp [ht]

theorem beginning_templates_le (ts : List Tree) :
    beginning n (ts.filter (·.kind = .template)) ≤ (ts.map (standing n)).sum := by
  induction ts with
  | nil => exact Nat.le_refl _
  | cons t ts ih =>
    rw [List.map_cons, List.sum_cons]
    by_cases ht : t.kind = .template
    · have hsite : t.kind.isSite = true := by rw [ht]; rfl
      rw [List.filter_cons_of_pos (by simpa using ht), beginning_cons, standing_site hsite]
      omega
    · rw [List.filter_cons_of_neg (by simpa using ht)]
      omega

/-- What a call hands over opens with the call, or stands ready in its parts. -/
theorem beginning_called_le (k : Kind) (s : Nat) (ts : List Tree) :
    beginning n (called (.node k s ts)) ≤ besides n k ts + (ts.map (standing n)).sum := by
  unfold called
  split
  · rename_i callee t rest heq
    cases heq
    rw [beginning_cons, beginning_nil, List.map_cons, List.sum_cons, List.map_cons, List.sum_cons]
    cases ht : t.kind.isSite with
    | true =>
      rw [standing_site ht]
      omega
    | false =>
      have hbesides : besides n .call (callee :: t :: rest) = if t.start = n then 1 else 0 := by
        simp [besides, ht]
      omega
  · exact Nat.zero_le _

/-- The templates of a markup attribute stand ready in its value. -/
theorem beginning_literals_le (k : Kind) (s : Nat) (ts : List Tree) :
    beginning n (literals (.node k s ts)) ≤ (ts.map (standing n)).sum := by
  unfold literals
  split
  · rename_i parts heq
    cases heq
    rw [List.map_cons, List.sum_cons, List.map_cons, List.sum_cons]
    exact Nat.le_trans (Nat.le_add_right _ _) (Nat.le_add_left _ _)
  · exact Nat.zero_le _

/-- What a node hands over or holds ready opens with it, or stood ready in its parts. -/
theorem own_le (k : Kind) (s : Nat) (ts : List Tree) :
    beginning n (called (.node k s ts)) + beginning n (literals (.node k s ts))
        + standing n (.node k s ts) ≤
      (if k.isSite = true ∧ s = n then 1 else 0) + besides n k ts + (ts.map (standing n)).sum := by
  by_cases hcall : k = .call
  · subst hcall
    have hliterals : literals (.node .call s ts) = [] := rfl
    have hcalled := beginning_called_le (n := n) .call s ts
    rw [hliterals, standing_node (by decide), beginning_nil]
    omega
  have hcalled : called (.node k s ts) = [] := by
    unfold called
    split
    · cases ‹Tree.node k s ts = _›
      exact absurd rfl hcall
    · rfl
  by_cases hexpression : k = .markupExpression
  · subst hexpression
    have hliterals : literals (.node .markupExpression s ts) = [] := rfl
    have htemplates := beginning_templates_le (n := n) ts
    rw [hliterals, hcalled, beginning_nil, standing]
    omega
  · have hliterals := beginning_literals_le (n := n) k s ts
    rw [hcalled, beginning_nil, standing_node hexpression]
    omega

mutual

theorem beginning_subtrees_le : ∀ t : Tree,
    beginning n (t.subtrees.flatMap called) + beginning n (t.subtrees.flatMap literals)
      + standing n t ≤ opens n t
  | .leaf k s text => by
    have hstanding : standing n (.leaf k s text) = opens n (Tree.leaf k s text) := rfl
    simp [subtrees, called, literals, hstanding]
  | .node k s ts => by
    have hparts := beginning_subtreesOf_le ts
    have hown := own_le (n := n) k s ts
    rw [subtrees, List.flatMap_cons, List.flatMap_cons, beginning_append, beginning_append,
      opens_node]
    omega

theorem beginning_subtreesOf_le : ∀ ts : List Tree,
    beginning n ((subtreesOf ts).flatMap called) + beginning n ((subtreesOf ts).flatMap literals)
      + (ts.map (standing n)).sum ≤ opens n ts
  | [] => Nat.le_refl _
  | t :: ts => by
    have hfirst := beginning_subtrees_le t
    have hrest := beginning_subtreesOf_le ts
    rw [subtreesOf, List.flatMap_append, List.flatMap_append, beginning_append, beginning_append,
      List.map_cons, List.sum_cons, opens_cons]
    omega

end

/-- What the calls of a tree hand over and the templates of its markup attributes begin at different
offsets. -/
def Separate (root : Tree) : Prop :=
  ((root.subtrees.flatMap called ++ root.subtrees.flatMap literals).map start).Nodup

theorem separate_of_opens_le {root : Tree} (h : ∀ n, opens n root ≤ 1) : root.Separate := by
  refine List.nodup_iff_count_le_one.mpr fun n => ?_
  have hopens := h n
  have hsubtrees := beginning_subtrees_le (n := n) root
  have happend := beginning_append (n := n) (root.subtrees.flatMap called)
    (root.subtrees.flatMap literals)
  rw [← beginning, happend]
  omega

namespace Separate

variable {root : Tree} (hroot : root.Separate)
include hroot

theorem nodup_called : ((root.subtrees.flatMap called).map start).Nodup :=
  List.Nodup.sublist ((List.sublist_append_left _ _).map _) hroot

theorem nodup_literals : ((root.subtrees.flatMap literals).map start).Nodup :=
  List.Nodup.sublist ((List.sublist_append_right _ _).map _) hroot

/-- What a call hands over begins where no template of an attribute does. -/
theorem start_ne {t u : Tree} (ht : t ∈ root.subtrees.flatMap called)
    (hu : u ∈ root.subtrees.flatMap literals) : t.start ≠ u.start := by
  rw [Separate, List.map_append] at hroot
  exact (List.nodup_append.mp hroot).2.2 _ (List.mem_map_of_mem ht) _ (List.mem_map_of_mem hu)

/-- A tree is handed over by one call only. -/
theorem call_unique {node node' t : Tree} (hnode : node ∈ root.subtrees)
    (hnode' : node' ∈ root.subtrees) (ht : t ∈ node.called) (ht' : t ∈ node'.called) :
    node = node' := by
  have hdisjoint := (List.nodup_flatMap.mp hroot.nodup_called.of_map).2
  have hsymm : Std.Symm (Function.onFun List.Disjoint called) := ⟨fun _ _ h _ ha hb => h hb ha⟩
  by_contra hne
  exact hdisjoint.forall hnode hnode' hne ht ht'

end Separate

end Tree

end Localization.Script
