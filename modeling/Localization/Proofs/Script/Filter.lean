import Localization.Proofs.Script.Anchored
import Localization.Proofs.Script.Grammar.Quoted
import Localization.Proofs.Script.Reordered

/-! Scripts that do not mention the names of the vocabulary are not read. With the default names, no
message is lost by that unless a script takes the message function itself from the host module. -/

namespace Localization.Script

theorem mentions_iff {name text : List Char} : mentions name text = true ↔ name <:+: text := by
  induction text with
  | nil => simp [mentions]
  | cons c cs ih =>
    rw [mentions, Bool.or_eq_true, List.isPrefixOf_iff_prefix, ih, List.infix_cons_iff]

/-! The symbols of idioms are names in their trees. -/

section Symbols

variable {specifier t : Tree} {s name : List Char}

theorem Loads.symbol_mem (h : Loads specifier (some s) t) :
    ∃ k n, k.isName = true ∧ .leaf k n s ∈ t.subtrees := by
  obtain ⟨⟩ := h
  exact ⟨.propertyName, _, rfl,
    Tree.mem_subtrees_node (.tail _ (.head _)) (Tree.mem_subtrees_self _)⟩

theorem Picks.symbol_mem {members : List Tree} (h : Picks members s name) :
    ∃ k n, k.isName = true ∧ .leaf k n s ∈ Tree.subtreesOf members := by
  cases h with
  | shorthand hmem =>
    exact ⟨.shorthandProperty, _, rfl,
      Tree.mem_subtreesOf.mpr ⟨_, hmem, Tree.mem_subtrees_self _⟩⟩
  | renamed hmem =>
    exact ⟨.propertyName, _, rfl, Tree.mem_subtreesOf.mpr
      ⟨_, hmem, Tree.mem_subtrees_node (.head _) (Tree.mem_subtrees_self _)⟩⟩

theorem Imports.symbol_mem {clause : List Tree} (h : Imports clause (some s) name) :
    ∃ k n, k.isName = true ∧ .leaf k n s ∈ Tree.subtreesOf clause := by
  cases h with
  | named hmem | renamed hmem =>
    exact ⟨.identifier, _, rfl, Tree.mem_subtreesOf.mpr
      ⟨_, hmem, Tree.mem_subtrees_node (.head _) (Tree.mem_subtrees_self _)⟩⟩

theorem Binds.symbol_mem (h : Binds specifier (some s) name t) :
    ∃ k n, k.isName = true ∧ .leaf k n s ∈ t.subtrees := by
  cases h with
  | declared h | assigned h =>
    obtain ⟨k, n, hk, hmem⟩ := h.symbol_mem
    exact ⟨k, n, hk, Tree.mem_subtrees_node (.tail _ (.head _)) hmem⟩
  | destructured h hpicks =>
    obtain ⟨k, n, hk, hmem⟩ := hpicks.symbol_mem
    exact ⟨k, n, hk, Tree.mem_subtrees_node (.head _) (List.mem_cons_of_mem _ hmem)⟩
  | imported himports =>
    obtain ⟨k, n, hk, hmem⟩ := himports.symbol_mem
    obtain ⟨c, hc, hmem⟩ := Tree.mem_subtreesOf.mp hmem
    exact ⟨k, n, hk, Tree.mem_subtrees_node (List.mem_append_left _ hc) hmem⟩

end Symbols

/-! What a script mentions that binds and calls in a tree with its names. -/

section Quoted

variable {script : List Char} {root : Tree} (hroot : quoted script root)
include hroot

theorem infix_of_leaf {k : Kind} {n : Nat} {name : List Char} (hk : k.isName = true)
    (h : .leaf k n name ∈ root.subtrees) : name <:+: script :=
  (hroot k n name h).2 hk

/-- An idiom mentions the module and the symbol that it names. -/
theorem infix_of_binds {t specifier : Tree} {symbol : Option (List Char)} {name m : List Char}
    (ht : t ∈ root.subtrees) (hbinds : Binds specifier symbol name t)
    (hholds : Holds specifier m) : m <:+: script ∧ ∀ s ∈ symbol, s <:+: script := by
  constructor
  · obtain ⟨hpart⟩ := hholds
    have hfragment := Tree.mem_subtrees_trans (Tree.mem_subtrees_node hpart
      (Tree.mem_subtrees_self _)) _ (Tree.mem_subtrees_trans hbinds.mem_subtrees.1 _ ht)
    exact infix_of_leaf hroot (k := .fragment) rfl hfragment
  · rintro s rfl
    obtain ⟨k, n, hk, hmem⟩ := hbinds.symbol_mem
    exact infix_of_leaf hroot hk (Tree.mem_subtrees_trans hmem _ ht)

/-- A call through a binding of the host module mentions the message namespace. -/
theorem infix_of_reaches_host {v : Vocabulary} {name : List Char} {c : Nat} {callee : Tree}
    {rest : List Tree} (hcall : .node .call c (callee :: rest) ∈ root.subtrees)
    (hreaches : Reaches sought v (.host name) callee) : sought v.messageNamespace <:+: script := by
  cases hreaches with
  | host ho hq hp =>
    subst hq
    exact infix_of_leaf hroot (k := .propertyName) rfl (Tree.mem_subtrees_trans
      (Tree.mem_subtrees_node (.head _) (Tree.mem_subtrees_node (.head _)
        (Tree.mem_subtrees_node (.tail _ (.head _)) (Tree.mem_subtrees_self _)))) _ hcall)

end Quoted

/-- The arguments of a call of a name that an idiom binds to the message function of the host
module. -/
def HostCall (v : Vocabulary) (root args : Tree) : Prop :=
  ∃ t ∈ root.subtrees, ∃ specifier name, Binds specifier (some (sought v.callName)) name t ∧
    Holds specifier (sought v.hostModule) ∧
    ∃ c i more, .node .call c (.leaf .identifier i (sought name) :: args :: more) ∈ root.subtrees

/-! Nothing is found exactly if no node that is read holds a message or has a fault. -/

theorem collect_eq_nil_iff {ms : List Message} : (collect [] ms).1 = [] ↔ ms = [] := by
  rw [collect_eq, ← Fields.ofList, Fields.ofList_eq_nil_iff, List.map_eq_nil_iff]

theorem inOrder_eq_nil_iff {entries : List Entry} : inOrder entries = [] ↔ entries = [] := by
  rw [← List.length_eq_zero_iff, inOrder, List.length_mergeSort, List.length_eq_zero_iff]

theorem entryAt?_faultAt?_none_iff {t : Tree} :
    entryAt? t = none ∧ faultAt? t = none ↔ classify t = .ok none := by
  unfold entryAt? messageAt? faultAt?
  cases classify t with
  | error e => simp
  | ok m => simp

theorem analyzeTree_nothing_iff {o : Options} {dialect : Dialect} {root : Tree} :
    (analyzeTree o dialect root).bundle = [] ∧ (analyzeTree o dialect root).faults = [] ↔
      ∀ t ∈ handed o dialect root, classify t = .ok none := by
  obtain ⟨hfaults, hbundle⟩ := analyzeTree_handed o dialect root
  rw [hfaults, hbundle, readSites_eq, collect_eq_nil_iff, List.map_eq_nil_iff, inOrder_eq_nil_iff,
    List.filterMap_eq_nil_iff, List.filterMap_eq_nil_iff]
  simp only [← entryAt?_faultAt?_none_iff, forall_and]

/-- Where literals are not looked for, what is read are the arguments of calls through bindings. -/
theorem Tree.Separate.mem_handed {root : Tree} (hroot : root.Separate) {o : Options}
    (hliterals : o.literals = false) {dialect : Dialect} {t : Tree} :
    t ∈ handed o dialect root ↔ ∃ b ∈ Binding.all o.vocabulary root,
      ∃ c callee more, .node .call c (callee :: t :: more) ∈ root.subtrees ∧
        Reaches sought o.vocabulary b callee := by
  have hsites : t ∈ handed o dialect root ↔
      t ∈ sites o dialect root (Binding.all o.vocabulary root) := by
    unfold handed
    dsimp only
    split
    · rename_i hempty
      rw [List.isEmpty_iff.mp hempty, hroot.mem_sites]
      simp [Matched, hliterals]
    · rfl
  rw [hsites, hroot.mem_sites, Matched, hliterals]
  constructor
  · rintro (⟨b, hb, node, hnode, hcalled⟩ | ⟨hfalse, -⟩)
    · obtain ⟨c, callee, more, rfl, hreaches⟩ := called?_eq_some_iff.mp hcalled
      exact ⟨b, hb, c, callee, more, hnode, hreaches⟩
    · cases hfalse
  · rintro ⟨b, hb, c, callee, more, hnode, hreaches⟩
    exact .inl ⟨b, hb, _, hnode, called?_eq_some_iff.mpr ⟨c, callee, more, rfl, hreaches⟩⟩

/-- A script mentions the names of a vocabulary, and so is read. -/
def Mentioned (v : Vocabulary) (script : List Char) : Prop :=
  v.messageNamespace <:+: script ∧ v.hostNamespace <:+: script

theorem analyze_of_mentioned {o : Options} {s : Source} {dialect : Dialect}
    (hdialect : dialectOf s.suffix = .ok dialect) (h : Mentioned o.vocabulary s.text) :
    analyze o s = .ok (analyzeTree o dialect (parse dialect s.text)) := by
  obtain ⟨hnamespace, hhost⟩ := h
  simp [analyze, hdialect, mentions_iff.mpr hnamespace, mentions_iff.mpr hhost, bind, Except.bind,
    pure, Except.pure]

theorem analyze_of_not_mentioned {o : Options} {s : Source} {dialect : Dialect}
    (hdialect : dialectOf s.suffix = .ok dialect) (h : ¬ Mentioned o.vocabulary s.text) :
    analyze o s = .ok {} := by
  have hmentions : mentions o.vocabulary.messageNamespace s.text = false ∨
      mentions o.vocabulary.hostNamespace s.text = false := by
    simpa only [Mentioned, ← mentions_iff, not_and_or, Bool.not_eq_true] using h
  simp [analyze, hdialect, hmentions, bind, Except.bind, pure, Except.pure]

/-! The default vocabulary. -/

section Default

variable {dialect : Dialect} {script : List Char} {root : Tree}

/-- The name of the message module holds both names. -/
theorem Mentioned.of_messageModule (h : "@vscode/l10n".toList <:+: script) : Mentioned {} script :=
  ⟨.trans ⟨"@vscode/".toList, [], rfl⟩ h, .trans ⟨"@".toList, "/l10n".toList, rfl⟩ h⟩

theorem HostCall.mem_handed {args : Tree} (h : HostCall {} root args) (hroot : root.Separate) :
    args ∈ handed {} dialect root := by
  obtain ⟨t, ht, specifier, name, hbinds, hholds, c, i, more, hcall⟩ := h
  have hfunction : Binding.function name ∈ Binding.all {} root :=
    Binding.mem_all.mpr ⟨t, ht, .intro hbinds hholds (.inl rfl) fun s hs =>
      .inr (Option.mem_some.mp hs).symm⟩
  exact (hroot.mem_handed rfl).mpr ⟨_, hfunction, c, _, more, hcall, .function rfl⟩

/-- Where a name of the default vocabulary is not mentioned, all bindings are of the host module: of
the module itself, whose message namespace no call names, or of its message function. -/
theorem hostCall_of_mem_handed (hroot : root.Separate) (hquoted : quoted script root)
    (hscript : ¬ Mentioned {} script) {args : Tree} (h : args ∈ handed {} dialect root) :
    HostCall {} root args := by
  obtain ⟨b, hb, c, callee, more, hcall, hreaches⟩ := (hroot.mem_handed rfl).mp h
  obtain ⟨t, ht, hbinds, hholds, hmodule, hsymbol⟩ := Binding.mem_all.mp hb
  rename_i specifier symbol name m
  obtain ⟨hm, hs⟩ := infix_of_binds hquoted ht hbinds hholds
  have hmodule : m = "vscode".toList ∨ m = "@vscode/l10n".toList := hmodule
  have hhost : m = "vscode".toList :=
    hmodule.resolve_right fun h => hscript (.of_messageModule (h ▸ hm))
  subst hhost
  have hnamespace : ¬ "l10n".toList <:+: script := fun h => hscript ⟨h, hm⟩
  cases symbol with
  | none => exact absurd (infix_of_reaches_host hquoted hcall hreaches) hnamespace
  | some s =>
    have hsymbol : s = "l10n".toList ∨ s = "t".toList := hsymbol s rfl
    have hfunction : s = "t".toList := hsymbol.resolve_left fun h => hnamespace (h ▸ hs s rfl)
    subst hfunction
    cases hreaches with
    | function hf =>
      subst hf
      exact ⟨t, ht, specifier, name, hbinds, hholds, c, _, more, hcall⟩

/-- A tree with the names of a script that does not mention both names of the default vocabulary holds
nothing exactly if no call in it of the message function of the host module does. -/
theorem analyzeTree_nothing_iff_hostCall (hroot : root.Separate) (hquoted : quoted script root)
    (hscript : ¬ Mentioned {} script) :
    (analyzeTree {} dialect root).bundle = [] ∧ (analyzeTree {} dialect root).faults = [] ↔
      ∀ args, HostCall {} root args → classify args = .ok none := by
  rw [analyzeTree_nothing_iff]
  exact ⟨fun h args hargs => h args (hargs.mem_handed hroot),
    fun h args hargs => h args (hostCall_of_mem_handed hroot hquoted hscript hargs)⟩

/-- With the default vocabulary and no literals looked for, not reading a script that does not
mention both names makes no difference exactly if no call in it of the message function, taken from
the host module, holds a message or has a fault. -/
theorem analyze_filter_iff {s : Source} (hdialect : dialectOf s.suffix = .ok dialect) :
    let root := parse dialect s.text
    let full := analyzeTree {} dialect root
    (∃ a, analyze {} s = .ok a ∧ a.bundle = full.bundle ∧ a.faults = full.faults) ↔
      Mentioned {} s.text ∨ ∀ args, HostCall {} root args → classify args = .ok none := by
  intro root full
  by_cases hmentioned : Mentioned {} s.text
  · exact iff_of_true ⟨full, analyze_of_mentioned hdialect hmentioned, rfl, rfl⟩ (.inl hmentioned)
  · have hnothing : (∃ a, analyze {} s = .ok a ∧ a.bundle = full.bundle ∧ a.faults = full.faults) ↔
        full.bundle = [] ∧ full.faults = [] := by
      rw [analyze_of_not_mentioned hdialect hmentioned]
      constructor
      · rintro ⟨a, ha, hbundle, hfaults⟩
        cases ha
        exact ⟨hbundle.symm, hfaults.symm⟩
      · rintro ⟨hbundle, hfaults⟩
        exact ⟨_, rfl, hbundle.symm, hfaults.symm⟩
    rw [hnothing, or_iff_right hmentioned]
    exact analyzeTree_nothing_iff_hostCall (separate_parse dialect s.text)
      (quoted_parse dialect s.text) hmentioned

/-- The script takes the message function from the host module and calls it, without a mention of
the message namespace. Reading it would give the message of the call. -/
theorem analyze_filter_iff_host :
    let s : Source := ⟨".ts".toList, "import \x7b t \x7d from 'vscode'; t('Hello');".toList, none⟩
    let full := analyzeTree {} .typed (parse .typed s.text)
    dialectOf s.suffix = .ok .typed ∧ (analyze {} s).toOption.map (·.bundle.keys) = some [] ∧
      full.bundle.keys = [Text.ofString "Hello"] ∧
      ∃ args, HostCall {} (parse .typed s.text) args ∧ classify args ≠ .ok none := by
  intro s full
  have hdialect : dialectOf s.suffix = .ok .typed := rfl
  have hfast : (analyze {} s).toOption.map (·.bundle.keys) = some [] := by decide +kernel
  have hfull : full.bundle.keys = [Text.ofString "Hello"] := by decide +kernel
  refine ⟨hdialect, hfast, hfull, ?_⟩
  by_contra hnone
  obtain ⟨a, ha, hbundle, -⟩ := (analyze_filter_iff hdialect).mpr
    (.inr fun args hargs => by_contra fun h => hnone ⟨args, hargs, h⟩)
  rw [ha] at hfast
  have hkeys : a.bundle.keys = [] := Option.some.inj hfast
  rw [hbundle] at hkeys
  exact absurd (hfull.symm.trans hkeys) (by simp)

end Default

end Localization.Script
