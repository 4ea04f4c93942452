import Localization.Script.Binding
import Mathlib.Data.List.Basic

/-! Which names a script binds: what each idiom binds, and what the search for bindings finds. -/

namespace Localization.Script

/-- A call of `require` with a specifier as its first argument. -/
inductive Requires (specifier : Tree) : Tree → Prop
  | call {c r a : Nat} {rest more : List Tree} :
    Requires specifier (.node .call c (.leaf .identifier r "require".toList
      :: .node .arguments a (specifier :: rest) :: more))

/-- A value is a required module, or a symbol of one. -/
inductive Loads (specifier : Tree) : Option (List Char) → Tree → Prop
  | whole {value : Tree} (h : Requires specifier value) : Loads specifier none value
  | property {m p : Nat} {object : Tree} {s : List Char} (h : Requires specifier object) :
    Loads specifier (some s) (.node .member m [object, .leaf .propertyName p s])

/-- The members of an object pattern bind a symbol to a name. -/
inductive Picks (members : List Tree) : List Char → List Char → Prop
  | shorthand {p : Nat} {name : List Char} (h : .leaf .shorthandProperty p name ∈ members) :
    Picks members name name
  | renamed {q p i : Nat} {s name : List Char}
    (h : .node .pairPattern q [.leaf .propertyName p s, .leaf .identifier i name] ∈ members) :
    Picks members s name

/-- The clause of an import binds a module, or a symbol of it, to a name. -/
inductive Imports (clause : List Tree) : Option (List Char) → List Char → Prop
  | everything {n i : Nat} {name : List Char}
    (h : .node .namespaceImport n [.leaf .identifier i name] ∈ clause) : Imports clause none name
  | named {n i : Nat} {name : List Char}
    (h : .node .importSpecifier n [.leaf .identifier i name] ∈ clause) :
    Imports clause (some name) name
  | renamed {n i j : Nat} {s name : List Char}
    (h : .node .importSpecifier n [.leaf .identifier i s, .leaf .identifier j name] ∈ clause) :
    Imports clause (some s) name

/-- A node binds a name to the module of a specifier, or to a symbol of it. -/
inductive Binds (specifier : Tree) : Option (List Char) → List Char → Tree → Prop
  | declared {d i : Nat} {name : List Char} {value : Tree} {more : List Tree}
    {symbol : Option (List Char)} (h : Loads specifier symbol value) :
    Binds specifier symbol name (.node .declarator d (.leaf .identifier i name :: value :: more))
  | assigned {a i : Nat} {name : List Char} {value : Tree} {symbol : Option (List Char)}
    (h : Loads specifier symbol value) :
    Binds specifier symbol name (.node .assignment a [.leaf .identifier i name, value])
  | destructured {d p : Nat} {s name : List Char} {members more : List Tree} {value : Tree}
    (h : Requires specifier value) (hpicks : Picks members s name) :
    Binds specifier (some s) name
      (.node .declarator d (.node .objectPattern p members :: value :: more))
  | imported {i : Nat} {symbol : Option (List Char)} {name : List Char} {clause : List Tree}
    (h : Imports clause symbol name) :
    Binds specifier symbol name (.node .importStatement i (clause ++ [specifier]))

/-- A run of characters that a string holds, besides others perhaps. -/
inductive Holds : Tree → List Char → Prop
  | part {s i : Nat} {m : List Char} {parts : List Tree} (h : .leaf .fragment i m ∈ parts) :
    Holds (.node .string s parts) m

/-- The characters of a string that holds no others. -/
inductive Spells : Tree → List Char → Prop
  | whole {s i : Nat} {m : List Char} : Spells (.node .string s [.leaf .fragment i m]) m

/-- The binding of a name to a module or to a symbol of it. -/
def Binding.of (v : Vocabulary) (moduleName : List Char) :
    Option (List Char) → List Char → Binding
  | none, name => .ofModule v moduleName name
  | some s, name => .ofSymbol v s name

/-- A node makes a binding of a vocabulary. `names` tells which characters a specifier names, and
`written` how the names of the vocabulary are written where they are looked for. -/
inductive Introduces (names : Tree → List Char → Prop) (written : List Char → List Char)
    (v : Vocabulary) (t : Tree) : Binding → Prop
  | intro {specifier : Tree} {symbol : Option (List Char)} {name m : List Char}
    (hbinds : Binds specifier symbol name t) (hnames : names specifier m)
    (hmodule : m = written v.hostModule ∨ m = written v.messageModule)
    (hsymbol : ∀ s ∈ symbol, s = written v.messageNamespace ∨ s = written v.callName) :
    Introduces names written v t (.of v m symbol name)

namespace Binding

variable {v : Vocabulary} {m s name : List Char} {b : Binding}

theorem isModule_iff : v.isModule m = true ↔ m = sought v.hostModule ∨ m = sought v.messageModule := by
  simp [Vocabulary.isModule]

theorem isSymbol_iff :
    v.isSymbol s = true ↔ s = sought v.messageNamespace ∨ s = sought v.callName := by
  simp [Vocabulary.isSymbol]

theorem mem_modulesIn {t : Tree} :
    (∃ i, (i, m) ∈ modulesIn v t) ↔ Holds t m ∧ v.isModule m = true := by
  constructor
  · rintro ⟨i, h⟩
    unfold modulesIn at h
    split at h
    · obtain ⟨part, hpart, hsome⟩ := List.mem_filterMap.mp h
      split at hsome
      · split at hsome
        · rename_i hmodule
          obtain ⟨rfl, rfl⟩ := Prod.mk.inj (Option.some.inj hsome)
          exact ⟨.part hpart, hmodule⟩
        · cases hsome
      · cases hsome
    · simp at h
  · rintro ⟨⟨hpart⟩, hmodule⟩
    exact ⟨_, List.mem_filterMap.mpr ⟨_, hpart, if_pos hmodule⟩⟩

theorem mem_required {value : Tree} : (∃ i, (i, m) ∈ required v value) ↔
    ∃ specifier, Requires specifier value ∧ Holds specifier m ∧ v.isModule m = true := by
  constructor
  · rintro ⟨i, h⟩
    unfold required at h
    split at h
    · rename_i first _ _
      split at h
      · rename_i hname
        subst hname
        exact ⟨first, .call, mem_modulesIn.mp ⟨i, h⟩⟩
      · simp at h
    · simp at h
  · rintro ⟨specifier, ⟨⟩, hholds⟩
    exact mem_modulesIn.mpr hholds

theorem mem_requiredSymbol {value : Tree} : (∃ i, (i, s) ∈ requiredSymbol v value) ↔
    v.isSymbol s = true ∧
      ∃ specifier m, Loads specifier (some s) value ∧ Holds specifier m ∧ v.isModule m = true := by
  constructor
  · rintro ⟨i, h⟩
    unfold requiredSymbol at h
    split at h
    · split at h
      · rename_i hsymbol
        obtain ⟨⟨j, m⟩, hm, heq⟩ := List.mem_map.mp h
        obtain ⟨rfl, rfl⟩ := Prod.mk.inj heq
        obtain ⟨specifier, hrequires, hholds⟩ := mem_required.mp ⟨_, hm⟩
        exact ⟨hsymbol, specifier, m, .property hrequires, hholds⟩
      · simp at h
    · simp at h
  · rintro ⟨hsymbol, specifier, m, ⟨⟩, hholds⟩
    obtain ⟨i, hi⟩ := mem_required.mpr ⟨specifier, ‹_›, hholds⟩
    refine ⟨i, ?_⟩
    rw [requiredSymbol, if_pos hsymbol]
    exact List.mem_map.mpr ⟨_, hi, rfl⟩

/-- A name is bound to whatever its value loads. -/
theorem mem_ofName {rank : Nat} {value : Tree} :
    (∃ f ∈ ofName v rank name value, f.binding = b) ↔
      ∃ specifier symbol m, Loads specifier symbol value ∧ Holds specifier m ∧
        v.isModule m = true ∧ (∀ s ∈ symbol, v.isSymbol s = true) ∧ b = .of v m symbol name := by
  simp only [ofName, List.mem_append, List.mem_map]
  constructor
  · rintro ⟨f, ⟨⟨i, m⟩, hm, rfl⟩ | ⟨⟨i, s⟩, hs, rfl⟩, rfl⟩
    · obtain ⟨specifier, hrequires, hholds, hmodule⟩ := mem_required.mp ⟨i, hm⟩
      exact ⟨specifier, none, m, .whole hrequires, hholds, hmodule, by simp, rfl⟩
    · obtain ⟨hsymbol, specifier, m, hloads, hholds, hmodule⟩ := mem_requiredSymbol.mp ⟨i, hs⟩
      exact ⟨specifier, some s, m, hloads, hholds, hmodule, by simpa using hsymbol, rfl⟩
  · rintro ⟨specifier, symbol, m, hloads, hholds, hmodule, hsymbol, rfl⟩
    cases symbol with
    | none =>
      cases hloads with
      | whole hrequires =>
        obtain ⟨i, hi⟩ := mem_required.mpr ⟨specifier, hrequires, hholds, hmodule⟩
        exact ⟨_, .inl ⟨_, hi, rfl⟩, rfl⟩
    | some s =>
      obtain ⟨i, hi⟩ :=
        mem_requiredSymbol.mpr ⟨hsymbol s rfl, specifier, m, hloads, hholds, hmodule⟩
      exact ⟨_, .inr ⟨_, hi, rfl⟩, rfl⟩

theorem mem_ofMembers {members : List Tree} {value : Tree} :
    (∃ f ∈ ofMembers v members value, f.binding = b) ↔
      ∃ specifier s name m, Requires specifier value ∧ Picks members s name ∧ Holds specifier m ∧
        v.isModule m = true ∧ v.isSymbol s = true ∧ b = .of v m (some s) name := by
  simp only [ofMembers, List.mem_flatMap, List.mem_filterMap]
  constructor
  · rintro ⟨f, ⟨⟨i, m⟩, hm, t, ht, hsome⟩, rfl⟩
    obtain ⟨specifier, hrequires, hholds, hmodule⟩ := mem_required.mp ⟨i, hm⟩
    split at hsome
    · split at hsome
      · cases hsome
        exact ⟨specifier, _, _, m, hrequires, .shorthand ht, hholds, hmodule, ‹_›, rfl⟩
      · cases hsome
    · split at hsome
      · cases hsome
        exact ⟨specifier, _, _, m, hrequires, .renamed ht, hholds, hmodule, ‹_›, rfl⟩
      · cases hsome
    · cases hsome
  · rintro ⟨specifier, s, name, m, hrequires, hpicks, hholds, hmodule, hsymbol, rfl⟩
    obtain ⟨i, hi⟩ := mem_required.mpr ⟨specifier, hrequires, hholds, hmodule⟩
    cases hpicks with
    | shorthand hmem => exact ⟨_, ⟨_, hi, _, hmem, if_pos hsymbol⟩, rfl⟩
    | renamed hmem => exact ⟨_, ⟨_, hi, _, hmem, if_pos hsymbol⟩, rfl⟩

theorem mem_ofImport {clause : List Tree} {specifier : Tree} :
    (∃ f ∈ ofImport v clause specifier, f.binding = b) ↔
      ∃ symbol name m, Imports clause symbol name ∧ Holds specifier m ∧ v.isModule m = true ∧
        (∀ s ∈ symbol, v.isSymbol s = true) ∧ b = .of v m symbol name := by
  simp only [ofImport, List.mem_flatMap, List.mem_filterMap]
  constructor
  · rintro ⟨f, ⟨⟨i, m⟩, hm, t, ht, hsome⟩, rfl⟩
    obtain ⟨hholds, hmodule⟩ := mem_modulesIn.mp ⟨i, hm⟩
    split at hsome
    · cases hsome
      exact ⟨none, _, m, .everything ht, hholds, hmodule, by simp, rfl⟩
    · split at hsome
      · rename_i hsymbol
        split at hsome <;> cases hsome
        · exact ⟨some _, _, m, .named ht, hholds, hmodule, by simpa using hsymbol, rfl⟩
        · exact ⟨some _, _, m, .renamed ht, hholds, hmodule, by simpa using hsymbol, rfl⟩
      · cases hsome
    · cases hsome
  · rintro ⟨symbol, name, m, himports, hholds, hmodule, hsymbol, rfl⟩
    obtain ⟨i, hi⟩ := mem_modulesIn.mpr ⟨hholds, hmodule⟩
    cases himports with
    | everything hmem => exact ⟨_, ⟨_, hi, _, hmem, rfl⟩, rfl⟩
    | named hmem => exact ⟨_, ⟨_, hi, _, hmem, if_pos (hsymbol _ rfl)⟩, rfl⟩
    | renamed hmem => exact ⟨_, ⟨_, hi, _, hmem, if_pos (hsymbol _ rfl)⟩, rfl⟩

/-- Every idiom that names a module in part makes a binding, and nothing else does. -/
theorem mem_madeBy {t : Tree} :
    (∃ f ∈ madeBy v t, f.binding = b) ↔ Introduces Holds sought v t b := by
  constructor
  · rintro ⟨f, hf, hb⟩
    unfold madeBy at hf
    split at hf
    · obtain ⟨specifier, symbol, m, hloads, hholds, hmodule, hsymbol, rfl⟩ :=
        mem_ofName.mp ⟨f, hf, hb⟩
      exact .intro (.declared hloads) hholds (isModule_iff.mp hmodule)
        fun s hs => isSymbol_iff.mp (hsymbol s hs)
    · obtain ⟨specifier, s, name, m, hrequires, hpicks, hholds, hmodule, hsymbol, rfl⟩ :=
        mem_ofMembers.mp ⟨f, hf, hb⟩
      exact .intro (.destructured hrequires hpicks) hholds (isModule_iff.mp hmodule)
        fun s hs => Option.some.inj hs ▸ isSymbol_iff.mp hsymbol
    · obtain ⟨specifier, symbol, m, hloads, hholds, hmodule, hsymbol, rfl⟩ :=
        mem_ofName.mp ⟨f, hf, hb⟩
      exact .intro (.assigned hloads) hholds (isModule_iff.mp hmodule)
        fun s hs => isSymbol_iff.mp (hsymbol s hs)
    · rename_i parts
      split at hf
      · rename_i specifier hlast
        obtain ⟨symbol, name, m, himports, hholds, hmodule, hsymbol, rfl⟩ :=
          mem_ofImport.mp ⟨f, hf, hb⟩
        rw [← List.dropLast_append_getLast? specifier hlast]
        exact .intro (.imported himports) hholds (isModule_iff.mp hmodule)
          fun s hs => isSymbol_iff.mp (hsymbol s hs)
      · simp at hf
    · simp at hf
  · rintro ⟨hbinds, hholds, hmodule, hsymbol⟩
    have hmodule := isModule_iff.mpr hmodule
    have hsymbol := fun s hs => isSymbol_iff.mpr (hsymbol s hs)
    cases hbinds with
    | declared hloads => exact mem_ofName.mpr ⟨_, _, _, hloads, hholds, hmodule, hsymbol, rfl⟩
    | assigned hloads => exact mem_ofName.mpr ⟨_, _, _, hloads, hholds, hmodule, hsymbol, rfl⟩
    | destructured hrequires hpicks =>
      exact mem_ofMembers.mpr
        ⟨_, _, _, _, hrequires, hpicks, hholds, hmodule, hsymbol _ rfl, rfl⟩
    | imported himports =>
      simp only [madeBy, List.getLast?_concat, List.dropLast_concat]
      exact mem_ofImport.mpr ⟨_, _, _, himports, hholds, hmodule, hsymbol, rfl⟩

theorem mem_all {root : Tree} :
    b ∈ all v root ↔ ∃ t ∈ root.subtrees, Introduces Holds sought v t b := by
  simp only [all, List.mem_eraseDups, List.mem_map, List.mem_mergeSort, List.mem_flatMap]
  constructor
  · rintro ⟨f, ⟨t, ht, hf⟩, hb⟩
    exact ⟨t, ht, mem_madeBy.mp ⟨f, hf, hb⟩⟩
  · rintro ⟨t, ht, hb⟩
    obtain ⟨f, hf, heq⟩ := mem_madeBy.mpr hb
    exact ⟨f, ⟨t, ht, hf⟩, heq⟩

end Binding

end Localization.Script
