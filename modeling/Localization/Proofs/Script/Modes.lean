import Localization.Proofs.Script.Grammar.Quoted
import Localization.Proofs.Script.Reordered
import Localization.Script.Modes

/-! The two ways to extract the messages of a script read the same nodes in the same order, so that
one ends with the fault that the other notes first. -/

namespace Localization.Script

namespace Policy

variable {policy : Policy} {g : Gathered} {ts us : List Tree}

/-- What reading nodes one after the other comes to. -/
def gather (policy : Policy) (g : Gathered) (ts : List Tree) : Except Stop Gathered :=
  match policy, ts.filterMap faultAt? with
  | .strict, f :: _ => .error (.fault f.cause)
  | _, faults => .ok ⟨g.entries ++ ts.filterMap entryAt?, g.faults ++ faults⟩

theorem gather_nil : policy.gather g [] = .ok g := by
  cases policy <;> simp [gather]

theorem gather_append :
    policy.gather g (ts ++ us) = (policy.gather g ts).bind fun g => policy.gather g us := by
  cases policy with
  | strict =>
    cases hfaults : ts.filterMap faultAt? with
    | nil => cases hrest : us.filterMap faultAt? <;> simp [gather, hfaults, hrest, Except.bind]
    | cons f faults => simp [gather, hfaults, Except.bind]
  | lenient => simp [gather, Except.bind]

theorem gather_one (t : Tree) : policy.gather g [t] = policy.readCall g t := by
  cases h : classify t with
  | ok m =>
    cases m <;> cases policy <;>
      simp [gather, readCall, faultAt?, entryAt?, messageAt?, h, Gathered.add]
  | error e =>
    cases policy <;> simp [gather, readCall, faultAt?, entryAt?, messageAt?, h, caught]

theorem gather_cons (g : Gathered) (t : Tree) (ts : List Tree) :
    policy.gather g (t :: ts) = (policy.readCall g t).bind fun g => policy.gather g ts := by
  rw [← gather_one, ← gather_append]
  rfl

/-- The arguments of calls are gathered once for each place where some begin. -/
theorem visitCall_all (seen : List Nat) (g : Gathered) (ts : List Tree) :
    ∃ after, ts.foldlM policy.visitCall (seen, g) =
      (policy.gather g (firstStarts seen ts)).map fun g => (after, g) := by
  induction ts generalizing seen g with
  | nil => exact ⟨seen, by rw [firstStarts, gather_nil]; rfl⟩
  | cons t ts ih =>
    rw [List.foldlM_cons, firstStarts, visitCall]
    split
    · exact ih seen g
    · rw [gather_cons]
      cases policy.readCall g t with
      | error e => exact ⟨seen, rfl⟩
      | ok g => exact ih (t.start :: seen) g

/-- Literals are gathered like calls, since no fault of a template is other than one of an escape
sequence. -/
theorem visitLiteral_all (g : Gathered) {ts : List Tree}
    (h : ∀ t ∈ ts, ∃ s parts, t = .node .template s parts) :
    ts.foldlM policy.visitLiteral g = policy.gather g ts := by
  induction ts generalizing g with
  | nil => exact gather_nil.symm
  | cons t ts ih =>
    obtain ⟨⟨s, parts, rfl⟩, hrest⟩ := List.forall_mem_cons.mp h
    have hvisit : policy.visitLiteral g (.node .template s parts) =
        policy.readCall g (.node .template s parts) := by
      rw [visitLiteral, readCall, classify]
      cases renderTemplate parts <;> rfl
    rw [List.foldlM_cons, hvisit, gather_cons]
    cases policy.readCall g (.node .template s parts) with
    | error e => rfl
    | ok g => exact ih g hrest

end Policy

theorem foldlM_flatMap {α β σ : Type} {m : Type → Type} [Monad m] [LawfulMonad m]
    (f : β → List α) (h : σ → α → m σ) (s : σ) (bs : List β) :
    bs.foldlM (fun s b => (f b).foldlM h s) s = (bs.flatMap f).foldlM h s := by
  induction bs generalizing s with
  | nil => rfl
  | cons b bs ih => simp only [List.foldlM_cons, List.flatMap_cons, List.foldlM_append, ih]

section Tree

variable {root : Tree} (hroot : ∀ s text, Tree.leaf .template s text ∉ root.subtrees)
include hroot

/-- Where no template of a tree is a leaf, its literals hold a message unless an escape sequence is
malformed. -/
theorem node_of_mem_literalSites {v : Vocabulary} {t : Tree} (h : t ∈ literalSites v root) :
    ∃ s parts, t = .node .template s parts := by
  obtain ⟨node, hnode, ht⟩ := List.mem_flatMap.mp h
  split at ht
  · split at ht
    · obtain ⟨hpart, hkind⟩ := List.mem_filter.mp ht
      cases t with
      | node k s parts =>
        obtain rfl : k = .template := of_decide_eq_true hkind
        exact ⟨s, parts, rfl⟩
      | leaf k s text =>
        obtain rfl : k = .template := of_decide_eq_true hkind
        have hmem : Tree.leaf .template s text ∈ root.subtrees :=
          Tree.mem_subtrees_trans (Tree.mem_subtrees_node (.tail _ (.head _))
            (Tree.mem_subtrees_node hpart (Tree.mem_subtrees_self _))) _ hnode
        exact absurd hmem (hroot s text)
    · simp at ht
  · simp at ht

/-- The nodes that an analysis reads are gathered, in its order. -/
theorem visitAll_eq (policy : Policy) (o : Options) (dialect : Dialect) (bindings : List Binding) :
    policy.visitAll o dialect root bindings =
      policy.gather {} (sites o dialect root bindings) := by
  obtain ⟨seen, hcalls⟩ := policy.visitCall_all [] {}
    (bindings.flatMap (sitesOf o.vocabulary root))
  rw [Policy.visitAll, foldlM_flatMap, hcalls, sites, Policy.gather_append, callSites]
  cases policy.gather {} (firstStarts [] (bindings.flatMap (sitesOf o.vocabulary root))) with
  | error e => rfl
  | ok g =>
    show (if _ then _ else _) = policy.gather g (if _ then _ else _)
    split
    · exact Policy.visitLiteral_all g fun t => node_of_mem_literalSites hroot
    · exact Policy.gather_nil.symm

end Tree

/-- How an extraction ends that comes to an analysis. -/
def Policy.settle : Policy → Analysis → Except Stop (Bundle × List Fault)
  | .lenient, a => .ok (a.bundle, a.faults)
  | .strict, a =>
    match a.outcome with
    | .ok b => .ok (b, [])
    | .error f => .error (.fault f.cause)

theorem settle_analyzeThrough (policy : Policy) (o : Options) (dialect : Dialect) (root : Tree)
    (bindings : List Binding) :
    policy.settle (analyzeThrough o dialect root bindings) =
      (policy.gather {} (sites o dialect root bindings)).bind
        fun g => .ok (g.bundle, g.faults) := by
  simp only [analyzeThrough, readSites_eq]
  cases policy with
  | lenient => simp [Policy.settle, Policy.gather, Gathered.bundle, Except.bind]
  | strict =>
    cases hfaults : (sites o dialect root bindings).filterMap faultAt? with
    | nil =>
      simp [Policy.settle, Policy.gather, Gathered.bundle, Analysis.outcome, Except.bind, hfaults]
    | cons f faults => simp [Policy.settle, Policy.gather, Analysis.outcome, Except.bind, hfaults]

/-- An extraction ends as the analysis of its script has it. -/
theorem extract_eq (policy : Policy) (o : Options) (s : Source) : extract policy o s =
    match analyze o s with
    | .error e => .error (.unsupported e)
    | .ok a => policy.settle a := by
  have hnone (parsed : Bool) : policy.settle { parsed } = .ok ([], []) := by cases policy <;> rfl
  unfold extract analyze
  cases dialectOf s.suffix with
  | error e => rfl
  | ok dialect =>
    simp only [Except.mapError, bind, Except.bind, pure, Except.pure, analyzeTree]
    split
    · exact (hnone false).symm
    · split
      · exact (hnone true).symm
      · rw [visitAll_eq fun n text h => (quoted_parse dialect s.text _ n text h).1 rfl]
        exact (settle_analyzeThrough ..).symm

theorem analyze_eq_error_iff {o : Options} {s : Source} {e : UnsupportedFile} :
    analyze o s = .error e ↔ dialectOf s.suffix = .error e := by
  unfold analyze
  cases dialectOf s.suffix with
  | error e => simp [bind, Except.bind]
  | ok dialect =>
    simp only [bind, Except.bind, pure, Except.pure]
    split <;> simp

/-- Both ways to extract end as the analysis of the script has it: the one that notes faults with
its bundle and all of its faults, the other one with its outcome. So the second gives a bundle
exactly if the first gives it with no faults, and ends with a fault exactly if the first notes that
one before any other. A script of no dialect ends both, and nothing else does. -/
theorem extract_agrees (o : Options) (s : Source) :
    let noted := extract .lenient o s
    let raised := (extract .strict o s).map Prod.fst
    noted = ((analyze o s).mapError .unsupported).map (fun a => (a.bundle, a.faults)) ∧
    raised = ((analyze o s).mapError .unsupported).bind
      (fun a => a.outcome.mapError fun f => .fault f.cause) ∧
    (∀ b, raised = .ok b ↔ noted = .ok (b, [])) ∧
    (∀ e, raised = .error (.fault e) ↔ ∃ b f faults, noted = .ok (b, f :: faults) ∧ f.cause = e) ∧
    (∀ e, raised = .error (.unsupported e) ↔ dialectOf s.suffix = .error e) ∧
    (∀ e, noted = .error (.unsupported e) ↔ dialectOf s.suffix = .error e) ∧
    raised ≠ .error .unhandled ∧ noted ≠ .error .unhandled ∧ ∀ e, noted ≠ .error (.fault e) := by
  intro noted raised
  simp only [noted, raised, extract_eq, ← analyze_eq_error_iff (o := o)]
  cases analyze o s with
  | error e => simp [Except.map, Except.mapError, Except.bind]
  | ok a =>
    cases hfaults : a.faults with
    | nil =>
      simp [Policy.settle, Analysis.outcome, hfaults, Except.map, Except.mapError, Except.bind]
    | cons f faults =>
      simp [Policy.settle, Analysis.outcome, hfaults, Except.map, Except.mapError, Except.bind]

end Localization.Script
