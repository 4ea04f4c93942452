import Localization.Proofs.Script.Starts
import Localization.Script.Extraction
import Mathlib.Data.List.Flatten

/-! The nodes of a script that are read: those that a binding or an attribute matches, each of them
once. -/

namespace Localization.Script

variable {o : Options} {dialect : Dialect} {bindings : List Binding}

/-- A node is read if it is the argument list or the template of a call through a binding, or a
literal where literals are looked for. -/
def Matched (o : Options) (dialect : Dialect) (root : Tree) (bindings : List Binding) (t : Tree) :
    Prop :=
  (∃ b ∈ bindings, ∃ node ∈ root.subtrees, b.called? o.vocabulary node = some t) ∨
    o.literals = true ∧ dialect = .markup ∧ t ∈ literalSites o.vocabulary root

theorem Matched.mono {root t : Tree} {bindings' : List Binding}
    (hsub : ∀ b ∈ bindings, b ∈ bindings') (h : Matched o dialect root bindings t) :
    Matched o dialect root bindings' t :=
  h.imp_left fun ⟨b, hb, hcall⟩ => ⟨b, hsub b hb, hcall⟩

theorem of_mem_firstStarts {seen : List Nat} {ts : List Tree} {t : Tree}
    (h : t ∈ firstStarts seen ts) : t ∈ ts ∧ t.start ∉ seen := by
  induction ts generalizing seen with
  | nil => simp [firstStarts] at h
  | cons u ts ih =>
    rw [firstStarts] at h
    split at h
    · exact ⟨List.mem_cons_of_mem _ (ih h).1, (ih h).2⟩
    · rename_i hnew
      rcases List.mem_cons.mp h with rfl | h
      · exact ⟨List.mem_cons_self .., fun hseen => hnew (List.contains_iff_mem.mpr hseen)⟩
      · exact ⟨List.mem_cons_of_mem _ (ih h).1,
          fun hseen => (ih h).2 (List.mem_cons_of_mem _ hseen)⟩

theorem nodup_firstStarts (seen : List Nat) (ts : List Tree) :
    ((firstStarts seen ts).map Tree.start).Nodup := by
  induction ts generalizing seen with
  | nil => exact List.nodup_nil
  | cons u ts ih =>
    rw [firstStarts]
    split
    · exact ih seen
    · refine List.nodup_cons.mpr ⟨fun h => ?_, ih (u.start :: seen)⟩
      obtain ⟨t, ht, heq⟩ := List.mem_map.mp h
      exact (of_mem_firstStarts ht).2 (heq ▸ List.mem_cons_self ..)

/-- Where different trees begin at different offsets, every tree is kept. -/
theorem mem_firstStarts {seen : List Nat} {ts : List Tree} {t : Tree}
    (hstart : ∀ t ∈ ts, ∀ u ∈ ts, t.start = u.start → t = u) :
    t ∈ firstStarts seen ts ↔ t ∈ ts ∧ t.start ∉ seen := by
  refine ⟨of_mem_firstStarts, fun h => ?_⟩
  obtain ⟨ht, hseen⟩ := h
  induction ts generalizing seen with
  | nil => simp at ht
  | cons u ts ih =>
    have hrest : ∀ t ∈ ts, ∀ u ∈ ts, t.start = u.start → t = u := fun t ht v hv =>
      hstart t (List.mem_cons_of_mem _ ht) v (List.mem_cons_of_mem _ hv)
    rw [firstStarts]
    by_cases heq : t.start = u.start
    · have htu := hstart t ht u (List.mem_cons_self ..) heq
      subst htu
      rw [if_neg fun h => hseen (List.contains_iff_mem.mp h)]
      exact List.mem_cons_self ..
    · have ht : t ∈ ts := (List.mem_cons.mp ht).resolve_left fun h => heq (h ▸ rfl)
      split
      · exact ih hrest ht hseen
      · refine List.mem_cons_of_mem _ (ih hrest ht fun h => ?_)
        exact (List.mem_cons.mp h).elim heq hseen

/-! Nodes that are read are among those that a tree hands over, which begin at different offsets. -/

theorem mem_called_of_called? {v : Vocabulary} {b : Binding} {node t : Tree}
    (h : b.called? v node = some t) : t ∈ node.called := by
  unfold Binding.called? at h
  split at h <;> first | cases h | skip
  all_goals
    split at h
    · exact Option.some.inj h ▸ List.mem_singleton_self _
    · cases h

theorem literalSites_sublist (v : Vocabulary) (root : Tree) :
    (literalSites v root).Sublist (root.subtrees.flatMap Tree.literals) := by
  refine List.Sublist.flatMap_right _ fun t _ => ?_
  split
  · split
    · exact List.Sublist.refl _
    · exact List.nil_sublist _
  · exact List.nil_sublist _

theorem mem_flatMap_sitesOf {v : Vocabulary} {root t : Tree} :
    t ∈ bindings.flatMap (sitesOf v root) ↔
      ∃ b ∈ bindings, ∃ node ∈ root.subtrees, b.called? v node = some t := by
  simp only [List.mem_flatMap, sitesOf, List.mem_filterMap]

theorem mem_called_of_mem_sites {v : Vocabulary} {root t : Tree}
    (h : t ∈ bindings.flatMap (sitesOf v root)) : t ∈ root.subtrees.flatMap Tree.called := by
  obtain ⟨b, -, node, hnode, hcall⟩ := mem_flatMap_sitesOf.mp h
  exact List.mem_flatMap.mpr ⟨node, hnode, mem_called_of_called? hcall⟩

namespace Tree.Separate

variable {root : Tree} (hroot : root.Separate)
include hroot

/-- The calls that are read are those through a binding. -/
theorem mem_callSites {v : Vocabulary} {t : Tree} :
    t ∈ callSites v root bindings ↔
      ∃ b ∈ bindings, ∃ node ∈ root.subtrees, b.called? v node = some t := by
  rw [callSites, mem_firstStarts, mem_flatMap_sitesOf]
  · simp
  · exact fun t ht u hu => List.inj_on_of_nodup_map hroot.nodup_called
      (mem_called_of_mem_sites ht) (mem_called_of_mem_sites hu)

theorem mem_sites {t : Tree} :
    t ∈ sites o dialect root bindings ↔ Matched o dialect root bindings t := by
  rw [sites, List.mem_append, hroot.mem_callSites, Matched]
  cases hliterals : o.literals <;> cases dialect <;> simp

/-- No two nodes that are read begin at one offset. -/
theorem nodup_sites (o : Options) (dialect : Dialect) (bindings : List Binding) :
    ((sites o dialect root bindings).map Tree.start).Nodup := by
  have hsublist := literalSites_sublist o.vocabulary root
  rw [sites, List.map_append]
  refine List.nodup_append.mpr ⟨nodup_firstStarts _ _, ?_, fun a ha b hb => ?_⟩
  · split
    · exact hroot.nodup_literals.sublist (hsublist.map Tree.start)
    · exact List.nodup_nil
  · obtain ⟨t, ht, rfl⟩ := List.mem_map.mp ha
    obtain ⟨u, hu, rfl⟩ := List.mem_map.mp hb
    split at hu
    · exact hroot.start_ne (mem_called_of_mem_sites (of_mem_firstStarts ht).1) (hsublist.subset hu)
    · exact absurd hu List.not_mem_nil

end Tree.Separate

end Localization.Script
