import Localization.Proofs.Script.Bound
import Localization.Proofs.Script.Matched
import Localization.Proofs.Script.Parse

/-! Calls are read if their callee goes through a binding, and bindings come from imports and
`require`. A name is bound as soon as one run of the characters of a specifier, between its escape
sequences, is that of a module, and names that hold a backslash are looked for without it. -/

namespace Localization.Script

/-- A callee goes through a binding. `written` tells how a name is written where it is looked for. -/
inductive Reaches (written : List Char → List Char) (v : Vocabulary) : Binding → Tree → Prop
  | messages {n o p : List Char} {m i j : Nat} (ho : o = written n) (hp : p = written v.callName) :
    Reaches written v (.messages n)
      (.node .member m [.leaf .identifier i o, .leaf .propertyName j p])
  | host {n o q p : List Char} {m k i j l : Nat} (ho : o = written n)
    (hq : q = written v.messageNamespace) (hp : p = written v.callName) :
    Reaches written v (.host n) (.node .member m
      [.node .member k [.leaf .identifier i o, .leaf .propertyName j q], .leaf .propertyName l p])
  | function {n f : List Char} {i : Nat} (hf : f = written n) :
    Reaches written v (.function n) (.leaf .identifier i f)

theorem called?_eq_some_iff {v : Vocabulary} {b : Binding} {node t : Tree} :
    b.called? v node = some t ↔
      ∃ c callee more, node = .node .call c (callee :: t :: more) ∧ Reaches sought v b callee := by
  constructor
  · intro h
    unfold Binding.called? at h
    split at h
    · split at h
      · rename_i hnames
        cases h
        exact ⟨_, _, _, rfl, .messages hnames.1 hnames.2⟩
      · cases h
    · split at h
      · rename_i hnames
        cases h
        exact ⟨_, _, _, rfl, .host hnames.1 hnames.2.1 hnames.2.2⟩
      · cases h
    · split at h
      · rename_i hname
        cases h
        exact ⟨_, _, _, rfl, .function hname⟩
      · cases h
    · cases h
  · rintro ⟨c, callee, more, rfl, h⟩
    cases h with
    | messages ho hp => exact if_pos ⟨ho, hp⟩
    | host ho hq hp => exact if_pos ⟨ho, hq, hp⟩
    | function hf => exact if_pos hf

/-- The nodes that an analysis reads: none if the script has no binding. -/
def handed (o : Options) (dialect : Dialect) (root : Tree) : List Tree :=
  let bindings := Binding.all o.vocabulary root
  if bindings.isEmpty then [] else sites o dialect root bindings

theorem analyzeTree_handed (o : Options) (dialect : Dialect) (root : Tree) :
    (analyzeTree o dialect root).faults = (readSites (handed o dialect root)).2 ∧
      (analyzeTree o dialect root).bundle =
        (collect [] ((inOrder (readSites (handed o dialect root)).1).map (·.message))).1 := by
  unfold analyzeTree handed
  dsimp only
  split
  · exact ⟨rfl, by simp [readSites, inOrder, collect]⟩
  · exact ⟨rfl, rfl⟩

/-- A call is read if its callee goes through a binding, wherever it stands. -/
theorem Tree.Separate.mem_handed_iff {o : Options} {dialect : Dialect} {root : Tree}
    (hroot : root.Separate) {c : Nat} {callee args : Tree} {more : List Tree}
    (hcall : .node .call c (callee :: args :: more) ∈ root.subtrees) :
    args ∈ handed o dialect root ↔
      ∃ b ∈ Binding.all o.vocabulary root, Reaches sought o.vocabulary b callee := by
  have hargs : args ∈ Tree.called (.node .call c (callee :: args :: more)) :=
    List.mem_singleton_self args
  constructor
  · intro h
    have hsites : args ∈ sites o dialect root (Binding.all o.vocabulary root) := by
      unfold handed at h
      dsimp only at h
      split at h
      · simp at h
      · exact h
    rcases hroot.mem_sites.mp hsites with ⟨b, hb, node, hnode, hcalled⟩ | ⟨-, -, hliteral⟩
    · obtain ⟨c', callee', more', rfl, hreaches⟩ := called?_eq_some_iff.mp hcalled
      cases hroot.call_unique hcall hnode hargs (mem_called_of_called? hcalled)
      exact ⟨b, hb, hreaches⟩
    · exact absurd rfl (hroot.start_ne (List.mem_flatMap.mpr ⟨_, hcall, hargs⟩)
        ((literalSites_sublist _ _).subset hliteral))
  · rintro ⟨b, hb, hreaches⟩
    have hsites : args ∈ sites o dialect root (Binding.all o.vocabulary root) :=
      hroot.mem_sites.mpr (.inl ⟨b, hb, _, hcall,
        called?_eq_some_iff.mpr ⟨c, callee, more, rfl, hreaches⟩⟩)
    unfold handed
    dsimp only
    split
    · rename_i hempty
      rw [List.isEmpty_iff.mp hempty] at hb
      simp at hb
    · exact hsites

/-! Where nothing is escaped, modules and names are told exactly. -/

def Binding.name : Binding → List Char
  | .host n | .messages n | .function n => n

/-- A specifier of an idiom with a run of characters that names a module has no other ones, and no
name that is bound and none of the vocabulary holds a backslash. -/
structure Plain (v : Vocabulary) (root : Tree) : Prop where
  specifiers : ∀ t ∈ root.subtrees, ∀ specifier symbol name m, Binds specifier symbol name t →
    Holds specifier m → m = v.hostModule ∨ m = v.messageModule → Spells specifier m
  names : ∀ t ∈ root.subtrees, ∀ b, Introduces Spells id v t b → '\\' ∉ b.name
  vocabulary : ∀ name ∈ [v.hostModule, v.messageModule, v.messageNamespace, v.callName], '\\' ∉ name

theorem sought_eq_self {name : List Char} (h : '\\' ∉ name) : sought name = name := by
  induction name with
  | nil => rfl
  | cons c cs ih =>
    obtain ⟨hc, hcs⟩ := not_or.mp (mt List.mem_cons.mpr h)
    rw [sought, ih hcs]
    exact fun _ _ heq => absurd heq.symm hc

theorem Spells.holds {specifier : Tree} {m : List Char} (h : Spells specifier m) :
    Holds specifier m := by
  obtain ⟨⟩ := h
  exact .part (List.mem_singleton_self _)

theorem Reaches.congr {written written' : List Char → List Char} {v : Vocabulary} {b : Binding}
    {callee : Tree} (hname : written b.name = written' b.name)
    (hcall : written v.callName = written' v.callName)
    (hnamespace : written v.messageNamespace = written' v.messageNamespace)
    (h : Reaches written v b callee) : Reaches written' v b callee := by
  cases h with
  | messages ho hp => exact .messages (ho.trans hname) (hp.trans hcall)
  | host ho hq hp => exact .host (ho.trans hname) (hq.trans hnamespace) (hp.trans hcall)
  | function hf => exact .function (hf.trans hname)

namespace Plain

variable {v : Vocabulary} {root t : Tree} {b : Binding}

theorem sought_vocabulary (h : Plain v root) :
    sought v.hostModule = v.hostModule ∧ sought v.messageModule = v.messageModule ∧
      sought v.messageNamespace = v.messageNamespace ∧ sought v.callName = v.callName :=
  ⟨sought_eq_self (h.vocabulary _ (by simp)), sought_eq_self (h.vocabulary _ (by simp)),
    sought_eq_self (h.vocabulary _ (by simp)), sought_eq_self (h.vocabulary _ (by simp))⟩

theorem introduces_iff (h : Plain v root) (ht : t ∈ root.subtrees) :
    Introduces Holds sought v t b ↔ Introduces Spells id v t b := by
  obtain ⟨hhost, hmodule, hnamespace, hcall⟩ := h.sought_vocabulary
  constructor
  · rintro ⟨hbinds, hholds, hm, hs⟩
    rw [hhost, hmodule] at hm
    rw [hnamespace, hcall] at hs
    exact .intro hbinds (h.specifiers t ht _ _ _ _ hbinds hholds hm) hm hs
  · rintro ⟨hbinds, hspells, hm, hs⟩
    refine .intro hbinds hspells.holds ?_ ?_
    · rwa [hhost, hmodule]
    · rwa [hnamespace, hcall]

/-- A callee goes through a binding that is looked for exactly when it names it exactly. -/
theorem reaches_iff (h : Plain v root) (ht : t ∈ root.subtrees) {callee : Tree}
    (hb : Introduces Spells id v t b) : Reaches sought v b callee ↔ Reaches id v b callee := by
  have hname := sought_eq_self (h.names t ht b hb)
  obtain ⟨-, -, hnamespace, hcall⟩ := h.sought_vocabulary
  exact ⟨.congr hname hcall hnamespace, .congr hname.symm hcall.symm hnamespace.symm⟩

end Plain

/-! What an idiom names is part of it, so that a tree without escapes is plain. -/

theorem Requires.specifier_mem {specifier value : Tree} (h : Requires specifier value) :
    specifier ∈ value.subtrees := by
  obtain ⟨⟩ := h
  exact Tree.mem_subtrees_node (.tail _ (.head _)) (Tree.mem_subtrees_node (.head _)
    (Tree.mem_subtrees_self specifier))

theorem Loads.specifier_mem {specifier value : Tree} {symbol : Option (List Char)}
    (h : Loads specifier symbol value) : specifier ∈ value.subtrees := by
  cases h with
  | whole h => exact h.specifier_mem
  | property h => exact Tree.mem_subtrees_node (.head _) h.specifier_mem

theorem Picks.name_mem {members : List Tree} {symbol name : List Char}
    (h : Picks members symbol name) : ∃ k s, .leaf k s name ∈ Tree.subtreesOf members := by
  cases h with
  | shorthand hmem => exact ⟨_, _, Tree.mem_subtreesOf.mpr ⟨_, hmem, Tree.mem_subtrees_self _⟩⟩
  | renamed hmem =>
    exact ⟨_, _, Tree.mem_subtreesOf.mpr ⟨_, hmem,
      Tree.mem_subtrees_node (.tail _ (.head _)) (Tree.mem_subtrees_self _)⟩⟩

theorem Imports.name_mem {clause : List Tree} {symbol : Option (List Char)} {name : List Char}
    (h : Imports clause symbol name) : ∃ k s, .leaf k s name ∈ Tree.subtreesOf clause := by
  cases h with
  | everything hmem | named hmem =>
    exact ⟨_, _, Tree.mem_subtreesOf.mpr ⟨_, hmem,
      Tree.mem_subtrees_node (.head _) (Tree.mem_subtrees_self _)⟩⟩
  | renamed hmem =>
    exact ⟨_, _, Tree.mem_subtreesOf.mpr ⟨_, hmem,
      Tree.mem_subtrees_node (.tail _ (.head _)) (Tree.mem_subtrees_self _)⟩⟩

/-- The specifier of an idiom and the name that it binds are parts of it. -/
theorem Binds.mem_subtrees {specifier t : Tree} {symbol : Option (List Char)} {name : List Char}
    (h : Binds specifier symbol name t) :
    specifier ∈ t.subtrees ∧ ∃ k s, .leaf k s name ∈ t.subtrees := by
  cases h with
  | declared h | assigned h =>
    exact ⟨Tree.mem_subtrees_node (.tail _ (.head _)) h.specifier_mem,
      _, _, Tree.mem_subtrees_node (.head _) (Tree.mem_subtrees_self _)⟩
  | destructured h hpicks =>
    obtain ⟨k, s, hname⟩ := hpicks.name_mem
    exact ⟨Tree.mem_subtrees_node (.tail _ (.head _)) h.specifier_mem,
      k, s, Tree.mem_subtrees_node (.head _) (List.mem_cons_of_mem _ hname)⟩
  | imported himports =>
    obtain ⟨k, s, hname⟩ := himports.name_mem
    obtain ⟨c, hc, hmem⟩ := Tree.mem_subtreesOf.mp hname
    exact ⟨Tree.mem_subtrees_node (List.mem_append_right _ (.head _)) (Tree.mem_subtrees_self _),
      k, s, Tree.mem_subtrees_node (List.mem_append_left _ hc) hmem⟩

@[simp] theorem Binding.name_of (v : Vocabulary) (m : List Char) (symbol : Option (List Char))
    (name : List Char) : (Binding.of v m symbol name).name = name := by
  cases symbol with
  | none =>
    simp only [Binding.of, Binding.ofModule]
    split <;> rfl
  | some s =>
    simp only [Binding.of, Binding.ofSymbol]
    split <;> rfl

/-- No string in a tree has more than one part, and no leaf holds a backslash. -/
def Tree.unescaped (root : Tree) : Bool :=
  root.subtrees.all fun
    | .node .string _ parts => parts.length ≤ 1
    | .node _ _ _ => true
    | .leaf _ _ text => !text.contains '\\'

theorem Plain.of_unescaped {v : Vocabulary} {root : Tree} (hroot : root.unescaped = true)
    (hvocabulary : ∀ name ∈ [v.hostModule, v.messageModule, v.messageNamespace, v.callName],
      '\\' ∉ name) : Plain v root where
  specifiers t ht specifier symbol name m hbinds hholds _ := by
    have hmem := Tree.mem_subtrees_trans hbinds.mem_subtrees.1 root ht
    obtain ⟨hpart⟩ := hholds
    rename_i s i parts
    have hlength : parts.length ≤ 1 := by simpa using List.all_eq_true.mp hroot _ hmem
    match parts, hpart with
    | [_], hpart =>
      cases List.mem_singleton.mp hpart
      exact .whole
    | _ :: _ :: _, _ => simp at hlength
  names t ht b hb := by
    obtain ⟨hbinds, -, -, -⟩ := hb
    obtain ⟨k, s, hname⟩ := hbinds.mem_subtrees.2
    rw [Binding.name_of]
    simpa using List.all_eq_true.mp hroot _ (Tree.mem_subtrees_trans hname root ht)
  vocabulary := hvocabulary

/-- A call of a tree is read exactly if its callee goes through a binding that an idiom makes. In a
plain tree the idiom names a module as a whole, and names are compared as they are. -/
theorem Tree.Separate.mem_handed_anchored {o : Options} {dialect : Dialect} {root : Tree}
    (hroot : root.Separate) {c : Nat} {callee args : Tree} {more : List Tree}
    (hcall : .node .call c (callee :: args :: more) ∈ root.subtrees) :
    (args ∈ handed o dialect root ↔
      ∃ b, (∃ t ∈ root.subtrees, Introduces Holds sought o.vocabulary t b) ∧
        Reaches sought o.vocabulary b callee) ∧
    (Plain o.vocabulary root → (args ∈ handed o dialect root ↔
      ∃ b, (∃ t ∈ root.subtrees, Introduces Spells id o.vocabulary t b) ∧
        Reaches id o.vocabulary b callee)) := by
  have hread : args ∈ handed o dialect root ↔
      ∃ b, (∃ t ∈ root.subtrees, Introduces Holds sought o.vocabulary t b) ∧
        Reaches sought o.vocabulary b callee := by
    simp only [← Binding.mem_all]
    exact hroot.mem_handed_iff hcall
  refine ⟨hread, fun hplain => hread.trans ⟨?_, ?_⟩⟩
  · rintro ⟨b, ⟨t, ht, hintroduces⟩, hreaches⟩
    have hexact := (hplain.introduces_iff ht).mp hintroduces
    exact ⟨b, ⟨t, ht, hexact⟩, (hplain.reaches_iff ht hexact).mp hreaches⟩
  · rintro ⟨b, ⟨t, ht, hexact⟩, hreaches⟩
    exact ⟨b, ⟨t, ht, (hplain.introduces_iff ht).mpr hexact⟩,
      (hplain.reaches_iff ht hexact).mpr hreaches⟩

/-- Every call of a script that mentions the names of its vocabulary is read exactly if its callee
goes through a binding that an idiom makes, at whatever depth the call stands. A specifier names each
run of its characters between two escape sequences, and names are compared with their backslashes
left out. In a plain tree, a specifier names a module as a whole, and names are compared as they
are. -/
theorem analyze_anchored {o : Options} {s : Source} {dialect : Dialect}
    (hdialect : dialectOf s.suffix = .ok dialect)
    (hnamespace : mentions o.vocabulary.messageNamespace s.text = true)
    (hhost : mentions o.vocabulary.hostNamespace s.text = true) :
    let root := parse dialect s.text
    let read := handed o dialect root
    (∃ a, analyze o s = .ok a ∧ a.faults = (readSites read).2 ∧
      a.bundle = (collect [] ((inOrder (readSites read).1).map (·.message))).1) ∧
      ∀ c callee args more, .node .call c (callee :: args :: more) ∈ root.subtrees →
        (args ∈ read ↔ ∃ b, (∃ t ∈ root.subtrees, Introduces Holds sought o.vocabulary t b) ∧
          Reaches sought o.vocabulary b callee) ∧
        (Plain o.vocabulary root →
          (args ∈ read ↔ ∃ b, (∃ t ∈ root.subtrees, Introduces Spells id o.vocabulary t b) ∧
            Reaches id o.vocabulary b callee)) := by
  intro root read
  have hanalyze : analyze o s = .ok (analyzeTree o dialect root) := by
    simp [analyze, hdialect, hnamespace, hhost, bind, Except.bind, pure, Except.pure, root]
  obtain ⟨hfaults, hbundle⟩ := analyzeTree_handed o dialect root
  exact ⟨⟨_, hanalyze, hfaults, hbundle⟩, fun c callee args more hcall =>
    (separate_parse dialect s.text).mem_handed_anchored hcall⟩

/-- The call is read although no string of the script spells the name of a module: the specifier
holds an escaped space besides. Without that space, the script is plain. -/
theorem analyze_anchored_escape :
    let s : Source := ⟨".ts".toList, "import * as v from 'vscode\\x20'; v.l10n.t('a');".toList, none⟩
    let root := parse .typed s.text
    (root.subtrees.all fun
      | .node .string _ [.leaf .fragment _ m] => m ≠ "vscode".toList && m ≠ "@vscode/l10n".toList
      | _ => true) = true ∧
      ∃ c callee args more, .node .call c (callee :: args :: more) ∈ root.subtrees ∧
        args ∈ handed {} .typed root ∧
        Plain {} (parse .typed "import * as v from 'vscode'; v.l10n.t('a');".toList) := by
  intro s root
  refine ⟨by decide +kernel, ?_⟩
  have hbindings : Binding.all {} root = [.host "v".toList] := by decide +kernel
  have hcalls : (root.subtrees.any fun t => ((Binding.host "v".toList).called? {} t).isSome) = true := by
    decide +kernel
  obtain ⟨node, hnode, hcalled⟩ := List.any_eq_true.mp hcalls
  obtain ⟨args, hargs⟩ := Option.isSome_iff_exists.mp hcalled
  obtain ⟨c, callee, more, rfl, hreaches⟩ := called?_eq_some_iff.mp hargs
  have hhost : Binding.host "v".toList ∈ Binding.all {} root :=
    hbindings ▸ List.mem_singleton_self _
  have hdialect : dialectOf s.suffix = .ok .typed := rfl
  have hread := (analyze_anchored (o := {}) hdialect (by decide +kernel) (by decide +kernel)).2
    c callee args more hnode
  exact ⟨c, callee, args, more, hnode, hread.1.mpr ⟨_, Binding.mem_all.mp hhost, hreaches⟩,
    .of_unescaped (by decide +kernel) (by decide +kernel)⟩

end Localization.Script
