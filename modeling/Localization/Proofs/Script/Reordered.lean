import Localization.Proofs.Bundle
import Localization.Proofs.Script.Matched
import Localization.Proofs.Script.Parse
import Mathlib.Data.List.Sort

/-! What is found in a script depends on which bindings there are, and not on their order or on how
often they are listed: the nodes that are read are the same, and messages are put into the bundle in
the order in which they stand in the script. -/

namespace Localization.Script

variable {o : Options} {dialect : Dialect} {root : Tree} {bindings : List Binding}

/-- The message that a node holds, if it holds one. -/
def messageAt? (t : Tree) : Option Message :=
  match classify t with
  | .ok m => m
  | .error _ => none

/-- The fault of a node, if it has one. -/
def faultAt? (t : Tree) : Option Fault :=
  match classify t with
  | .ok _ => none
  | .error e => some ⟨t.start, e⟩

def entryAt? (t : Tree) : Option Entry := (messageAt? t).map fun m => ⟨t.start, m⟩

/-- Nodes are those that are read in a script, each of them once, in the order in which they stand
there. -/
structure Reads (o : Options) (dialect : Dialect) (root : Tree) (bindings : List Binding)
    (nodes : List Tree) : Prop where
  ordered : nodes.Pairwise fun t u => t.start < u.start
  matched : ∀ t, t ∈ nodes ↔ Matched o dialect root bindings t

theorem Reads.congr {nodes : List Tree} {again : List Binding}
    (hsame : ∀ b, b ∈ again ↔ b ∈ bindings) (h : Reads o dialect root bindings nodes) :
    Reads o dialect root again nodes :=
  ⟨h.ordered, fun t => (h.matched t).trans
    ⟨.mono fun b => (hsame b).mpr, .mono fun b => (hsame b).mp⟩⟩

/-- A node holds a message or has a fault, but not both. -/
theorem messageAt?_or_faultAt? (t : Tree) : messageAt? t = none ∨ faultAt? t = none := by
  unfold messageAt? faultAt?
  cases classify t with
  | ok m => exact .inr rfl
  | error e => exact .inl rfl

theorem readSites_eq (ts : List Tree) :
    readSites ts = (ts.filterMap entryAt?, ts.filterMap faultAt?) := by
  induction ts with
  | nil => rfl
  | cons t ts ih =>
    rw [readSites, ih, List.filterMap_cons, List.filterMap_cons, entryAt?, faultAt?, messageAt?]
    rcases classify t with e | _ | m <;> rfl

theorem collect_eq (b : Bundle) (ms : List Message) :
    (collect b ms).1 = (ms.map Message.entry).foldl (fun m e => m.put e.1 e.2) b := by
  induction ms generalizing b with
  | nil => rfl
  | cons m ms ih => exact ih (b.put m.key m.value)

/-! Sorting. -/

/-- What begins at different places is in strict order once it is sorted. -/
theorem pairwise_lt_mergeSort {α : Type} (place : α → Nat) {as : List α}
    (h : (as.map place).Nodup) :
    (as.mergeSort fun a b => place a ≤ place b).Pairwise fun a b => place a < place b := by
  have hperm := List.mergeSort_perm as fun a b => place a ≤ place b
  have hle : (as.mergeSort fun a b => place a ≤ place b).Pairwise
      fun a b => decide (place a ≤ place b) = true :=
    List.pairwise_mergeSort (fun a b c hab hbc => by simp at *; omega)
      (fun a b => by simp; omega) as
  have hne := List.pairwise_map.mp ((hperm.map place).nodup_iff.mpr h)
  exact (hle.and hne).imp fun hab => Nat.lt_of_le_of_ne (of_decide_eq_true hab.1) hab.2

/-- There is one way only to put things in strict order. -/
theorem eq_of_pairwise_lt {α : Type} (place : α → Nat) {as bs : List α}
    (has : as.Pairwise fun a b => place a < place b) (hbs : bs.Pairwise fun a b => place a < place b)
    (h : ∀ a, a ∈ as ↔ a ∈ bs) : as = bs := by
  have hirrefl : Std.Irrefl fun a b => place a < place b := ⟨fun _ => Nat.lt_irrefl _⟩
  have hantisymm : Std.Antisymm fun a b => place a < place b :=
    ⟨fun _ _ hab hba => absurd hab (Nat.lt_asymm hba)⟩
  exact has.eq_of_mem_iff hbs h

theorem pairwise_filterMap_entryAt? {nodes : List Tree}
    (h : nodes.Pairwise fun t u => t.start < u.start) :
    (nodes.filterMap entryAt?).Pairwise fun a b => a.start < b.start := by
  refine List.pairwise_filterMap.mpr (h.imp fun {t u} hlt a ha b hb => ?_)
  obtain ⟨m, -, rfl⟩ := Option.map_eq_some_iff.mp ha
  obtain ⟨m', -, rfl⟩ := Option.map_eq_some_iff.mp hb
  exact hlt

theorem Tree.Separate.exists_reads (hroot : root.Separate) (o : Options) (dialect : Dialect)
    (bindings : List Binding) : ∃ nodes, Reads o dialect root bindings nodes :=
  ⟨_, pairwise_lt_mergeSort Tree.start (hroot.nodup_sites o dialect bindings),
    fun _ => (List.mergeSort_perm _ _).mem_iff.trans hroot.mem_sites⟩

namespace Reads

variable {nodes : List Tree} (hroot : root.Separate)
include hroot

theorem perm_sites (h : Reads o dialect root bindings nodes) :
    (sites o dialect root bindings).Perm nodes := by
  have hnodes : nodes.Nodup := h.ordered.imp fun {t u} hlt heq => by
    subst heq
    exact Nat.lt_irrefl _ hlt
  exact (List.perm_ext_iff_of_nodup (hroot.nodup_sites o dialect bindings).of_map hnodes).mpr fun t =>
    hroot.mem_sites.trans (h.matched t).symm

theorem inOrder_eq (h : Reads o dialect root bindings nodes) :
    inOrder ((sites o dialect root bindings).filterMap entryAt?) =
      nodes.filterMap entryAt? := by
  have hperm := (perm_sites hroot h).filterMap entryAt?
  have hnodes := pairwise_filterMap_entryAt? h.ordered
  have hstarts : ((nodes.filterMap entryAt?).map Entry.start).Nodup :=
    List.pairwise_map.mpr (hnodes.imp Nat.ne_of_lt)
  exact eq_of_pairwise_lt Entry.start
    (pairwise_lt_mergeSort Entry.start ((hperm.map Entry.start).nodup_iff.mpr hstarts)) hnodes
    fun a => ((List.mergeSort_perm _ _).trans hperm).mem_iff

/-- The bundle is made of the messages of the nodes that are read, one after the other. -/
theorem bundle_eq (h : Reads o dialect root bindings nodes) :
    (analyzeThrough o dialect root bindings).bundle =
      Fields.ofList ((nodes.filterMap messageAt?).map Message.entry) := by
  have hmessages : (nodes.filterMap entryAt?).map (·.message) = nodes.filterMap messageAt? := by
    rw [List.map_filterMap]
    congr 1
    funext t
    simp [entryAt?, Function.comp_def]
  simp only [analyzeThrough, readSites_eq]
  rw [collect_eq, inOrder_eq hroot h, hmessages, Fields.ofList]

theorem faults_perm (h : Reads o dialect root bindings nodes) :
    (analyzeThrough o dialect root bindings).faults.Perm
      (nodes.filterMap faultAt?) := by
  simp only [analyzeThrough, readSites_eq]
  exact (perm_sites hroot h).filterMap faultAt?

end Reads

theorem keys_entries (ms : List Message) :
    (Fields.ofList (ms.map Message.entry)).keys = (ms.map Message.key).eraseDups := by
  rw [Fields.keys_ofList, Fields.keys, List.map_map]
  rfl

theorem get?_entries (ms : List Message) (key : Text) :
    (Fields.ofList (ms.map Message.entry)).get? key =
      (ms.reverse.find? (·.key = key)).map Message.value := by
  rw [Fields.get?_ofList, ← List.map_reverse, List.find?_map, Option.map_map]
  rfl

/-- A list with the same bindings finds the same bundle and the same faults in a tree whose nodes
begin at different offsets. -/
theorem Tree.Separate.analyzeThrough_eq (hroot : root.Separate) (o : Options) (dialect : Dialect)
    {bindings again : List Binding} (hsame : ∀ b, b ∈ again ↔ b ∈ bindings) :
    let found := analyzeThrough o dialect root bindings
    let found' := analyzeThrough o dialect root again
    found'.bundle = found.bundle ∧ found'.faults.Perm found.faults ∧
      ∃ nodes : List Tree, Reads o dialect root bindings nodes ∧
        (∀ t ∈ nodes, messageAt? t = none ∨ faultAt? t = none) ∧
        found.faults.Perm (nodes.filterMap faultAt?) ∧
        found.bundle.keys = ((nodes.filterMap messageAt?).map Message.key).eraseDups ∧
        ∀ key, found.bundle.get? key =
          ((nodes.filterMap messageAt?).reverse.find? (·.key = key)).map Message.value := by
  intro found found'
  obtain ⟨nodes, hreads⟩ := hroot.exists_reads o dialect bindings
  have hagain := hreads.congr hsame
  have hbundle := hreads.bundle_eq hroot
  refine ⟨(hagain.bundle_eq hroot).trans hbundle.symm,
    (hagain.faults_perm hroot).trans (hreads.faults_perm hroot).symm, nodes, hreads,
    fun t _ => messageAt?_or_faultAt? t, hreads.faults_perm hroot, ?_, fun key => ?_⟩
  · exact (congrArg Fields.keys hbundle).trans (keys_entries _)
  · exact (congrArg (Fields.get? key) hbundle).trans (get?_entries _ key)

/-- A list with the same bindings, in another order or with some of them more than once, finds the
same bundle and the same faults. Each node that is read, however many bindings match it, gives at
most one message or one fault. The keys stand in the order of their first messages in the script, and
each of them has the value of its last one. -/
theorem analyzeThrough_reordered (o : Options) (dialect : Dialect) (script : List Char)
    {bindings again : List Binding} (hsame : ∀ b, b ∈ again ↔ b ∈ bindings) :
    let found := analyzeThrough o dialect (parse dialect script) bindings
    let found' := analyzeThrough o dialect (parse dialect script) again
    found'.bundle = found.bundle ∧ found'.faults.Perm found.faults ∧
      ∃ nodes : List Tree, Reads o dialect (parse dialect script) bindings nodes ∧
        (∀ t ∈ nodes, messageAt? t = none ∨ faultAt? t = none) ∧
        found.faults.Perm (nodes.filterMap faultAt?) ∧
        found.bundle.keys = ((nodes.filterMap messageAt?).map Message.key).eraseDups ∧
        ∀ key, found.bundle.get? key =
          ((nodes.filterMap messageAt?).reverse.find? (·.key = key)).map Message.value :=
  (separate_parse dialect script).analyzeThrough_eq o dialect hsame

/-- Two calls in a third one, which has a fault. The second list has the bindings in the other order,
and one of them twice, and the calls are read in another order through it. -/
theorem analyzeThrough_reordered_repeated :
    let script := ("import * as v from 'vscode'; import \x7b t \x7d from '@vscode/l10n';" ++
      "t('a'); t(`$\x7bv.l10n.t('b')\x7d`, t('a'));").toList
    let root := parse .typed script
    let bindings := [Binding.host "v".toList, .function "t".toList]
    let again := [Binding.function "t".toList, .host "v".toList, .function "t".toList]
    (sites {} .typed root bindings).map Tree.start = [83, 63, 71, 93] ∧
      (sites {} .typed root again).map Tree.start = [63, 71, 93, 83] ∧
      (analyzeThrough {} .typed root again).bundle = (analyzeThrough {} .typed root bindings).bundle ∧
      (analyzeThrough {} .typed root again).faults.Perm
        (analyzeThrough {} .typed root bindings).faults := by
  intro script root bindings again
  have hsame : ∀ b, b ∈ again ↔ b ∈ bindings := fun b => by
    simp only [again, bindings, List.mem_cons, List.not_mem_nil]
    tauto
  obtain ⟨hbundle, hfaults, -⟩ := analyzeThrough_reordered {} .typed script hsame
  exact ⟨by decide +kernel, by decide +kernel, hbundle, hfaults⟩

end Localization.Script
