import Localization.Proofs.Xml.Element

/-! Elements as they are written: a tag with attributes, content, and the tag that closes it. -/

namespace Localization.Xml

def isBase (n : List Char) : Bool := n.head?.any isNameStart && n.all isNameChar

def Name.isWritten (n : Name) : Bool := isBase n.base && n.qualifier.all isBase

theorem isNameStart_blank {c : Char} (h : isNameStart c = true) : isBlank c = false := by
  by_contra hc
  simp only [isBlank, Bool.not_eq_false, Bool.or_eq_true, beq_iff_eq] at hc
  rcases hc with ((rfl | rfl) | rfl) | rfl <;> revert h <;> decide

theorem isBase_cons {n : List Char} (h : isBase n = true) :
    ∃ c cs, n = c :: cs ∧ isNameStart c = true := by
  cases n with
  | nil => cases h
  | cons c cs =>
    simp only [isBase, List.head?_cons, Option.any_some, Bool.and_eq_true] at h
    exact ⟨c, cs, rfl, h.1⟩

theorem scanBase_base {n rest : List Char} (hn : isBase n = true)
    (hrest : ∀ c ∈ rest.head?, isNameChar c = false) : scanBase (n ++ rest) = .ok (n, rest) := by
  obtain ⟨c, cs, rfl, hc⟩ := isBase_cons hn
  have hall : ∀ d ∈ c :: cs, isNameChar d := by
    simp only [isBase, Bool.and_eq_true, List.all_eq_true] at hn
    exact hn.2
  rw [List.cons_append, scanBase, if_pos hc, ← List.cons_append, span_run hall hrest]

theorem scanName_written {n : Name} {rest : List Char} (hn : n.isWritten = true)
    (hrest : ∀ c ∈ rest.head?, isNameChar c = false ∧ c ≠ ':') :
    scanName (n.written ++ rest) = .ok (n, rest) := by
  obtain ⟨qualifier, base⟩ := n
  simp only [Name.isWritten, Bool.and_eq_true] at hn
  have hends : ∀ c ∈ rest.head?, isNameChar c = false := fun c hc => (hrest c hc).1
  cases qualifier with
  | none =>
    simp only [scanName, Name.written, scanBase_base hn.1 hends, bind, Except.bind]
    split
    · exact absurd rfl (hrest ':' rfl).2
    · rfl
  | some q =>
    have hq : ∀ c ∈ (':' :: (base ++ rest)).head?, isNameChar c = false := by
      simp only [List.head?_cons, Option.mem_some_iff, forall_eq']
      decide
    simp only [scanName, Name.written, List.append_assoc, List.cons_append,
      scanBase_base hn.2 hq, scanBase_base hn.1 hends, bind, Except.bind]
    split
    · exact absurd rfl (hrest ':' rfl).2
    · rfl

/-- An attribute has its value after its name. -/
theorem scanName_equals {n : Name} (hn : n.isWritten = true) (rest : List Char) :
    scanName (n.written ++ '=' :: rest) = .ok (n, '=' :: rest) := by
  refine scanName_written hn ?_
  simp only [List.head?_cons, Option.mem_some_iff, forall_eq']
  decide

theorem Name.written_cons {n : Name} (hn : n.isWritten = true) :
    ∃ c cs, n.written = c :: cs ∧ isNameStart c = true := by
  simp only [Name.isWritten, Bool.and_eq_true] at hn
  unfold Name.written
  split
  · rename_i q hq
    rw [hq] at hn
    obtain ⟨c, cs, rfl, hc⟩ := isBase_cons hn.2
    exact ⟨c, _, rfl, hc⟩
  · exact isBase_cons hn.1

theorem skipBlanks_nameStart {c : Char} (hc : isNameStart c = true) (cs : List Char) :
    skipBlanks (' ' :: c :: cs) = c :: cs := by
  rw [skipBlanks, List.dropWhile_cons_of_pos (by decide),
    List.dropWhile_cons_of_neg (by simp [isNameStart_blank hc])]

/-- An attribute with the characters between its quotes and the value that they stand for. -/
structure Attribute where
  name : Name
  raw : List Char
  value : List Char

namespace Attribute

/-- Characters that are read as the value of an attribute. -/
def IsValue (raw value : List Char) : Prop :=
  scanValue '"' (raw ++ ['"']) = .ok (raw, []) ∧ attributeValue {} false 0 raw = .ok value

structure Valid (a : Attribute) : Prop where
  name : a.name.isWritten = true
  unbound : Namespace.bound? a.name = none
  value : IsValue a.raw a.value

def pair (a : Attribute) : Name × List Char := (a.name, a.raw)

def written (a : Attribute) : List Char := ' ' :: (a.name.written ++ '=' :: '"' :: (a.raw ++ ['"']))

def plain (as : List Attribute) : List (List Char × List Char) :=
  as.filterMap fun a => if a.name.qualifier.isNone then some (a.name.base, a.value) else none

def qualified (as : List Attribute) : List (List Char × List Char) :=
  as.filterMap fun a => a.name.qualifier.map fun q => (q, a.name.base)

def IsVerbatim (cs : List Char) : Prop :=
  ∀ c ∈ cs, isLegal c = true ∧ c ≠ '"' ∧ c ≠ '<' ∧ c ≠ '&' ∧ c ≠ '\t' ∧ c ≠ '\n' ∧ c ≠ '\r'

theorem isValue_verbatim {cs : List Char} (h : IsVerbatim cs) : IsValue cs cs := by
  constructor
  · induction cs with
    | nil => rfl
    | cons c cs ih =>
      obtain ⟨hlegal, hquote, hlt, hamp, -⟩ := h c (by simp)
      rw [List.cons_append, scanValue, ih fun d hd => h d (List.mem_cons_of_mem _ hd)]
      simp [hquote, hlt, hamp, hlegal, Except.map]
  · have hvalue : ∀ fuel, cs.length < fuel →
        valueWith (expandInValue {} 1 []) 0 fuel cs = .ok cs := by
      induction cs with
      | nil =>
        intro fuel hfuel
        obtain ⟨fuel, rfl⟩ := Nat.exists_eq_add_one.mpr hfuel
        rfl
      | cons c cs ih =>
        intro fuel hfuel
        obtain ⟨fuel, rfl⟩ := Nat.exists_eq_add_one.mpr (Nat.zero_lt_of_lt hfuel)
        obtain ⟨-, -, hlt, hamp, htab, hlf, hcr⟩ := h c (by simp)
        have hblank : c ≠ ' ' → isBlank c = false := by
          intro hspace
          simp [isBlank, hspace, htab, hlf, hcr]
        have ih := ih (fun d hd => h d (List.mem_cons_of_mem _ hd)) fuel
          (by simpa using hfuel)
        rw [valueWith, ih]
        · by_cases hspace : c = ' '
          · subst hspace; rfl
          · simp [hblank hspace, Except.map]
        all_goals simp [hlt, hamp, hcr]
    rw [attributeValue]
    exact map_eq_ok_iff.mpr ⟨cs, hvalue _ (Nat.lt_succ_self _), rfl⟩

theorem scanAttribute_written {a : Attribute} (ha : a.Valid) (rest : List Char) :
    ∃ w, scanAttribute (a.name.written ++ '=' :: '"' :: (a.raw ++ '"' :: rest)) = .ok (w, rest) ∧
      w.pair = a.pair := by
  have hvalue := scanValue_local '"' ha.value.1 rest
  simp only [List.append_assoc, List.singleton_append, List.nil_append] at hvalue
  have hequals : ∀ cs, skipBlanks ('=' :: cs) = '=' :: cs := fun cs => rfl
  have hquote : ∀ cs, skipBlanks ('"' :: cs) = '"' :: cs := fun cs => rfl
  simp only [scanAttribute, scanName_equals ha.name, bind, Except.bind, hequals, hquote, hvalue]
  exact ⟨_, rfl, rfl⟩

theorem scanAttributes_written {as : List Attribute} (has : ∀ a ∈ as, a.Valid) (rest : List Char)
    {fuel : Nat} (hfuel : as.length < fuel) : ∃ ws,
      scanAttributes fuel (as.flatMap written ++ '>' :: rest) = .ok ((ws, false), rest) ∧
      ws.map WrittenAttribute.pair = as.map pair := by
  induction as generalizing fuel with
  | nil =>
    obtain ⟨fuel, rfl⟩ := Nat.exists_eq_add_one.mpr hfuel
    exact ⟨[], rfl, rfl⟩
  | cons a as ih =>
    obtain ⟨fuel, rfl⟩ := Nat.exists_eq_add_one.mpr (Nat.zero_lt_of_lt hfuel)
    have ha := has a (by simp)
    have hfuel : as.length < fuel := by simpa using hfuel
    obtain ⟨ws, hws, hpairs⟩ := ih (fun b hb => has b (List.mem_cons_of_mem _ hb)) hfuel
    obtain ⟨w, hw, hpair⟩ := scanAttribute_written ha (as.flatMap written ++ '>' :: rest)
    refine ⟨w :: ws, ?_, by simp [hpair, hpairs]⟩
    obtain ⟨c, cs, hcs, hc⟩ := Name.written_cons ha.name
    have hspace : isBlank ' ' = true := by decide
    simp only [List.flatMap_cons, written, hcs, List.cons_append, List.append_assoc,
      List.nil_append] at hw ⊢
    simp only [scanAttributes, hspace, if_true, skipBlanks_nameStart hc, hc, hw, hws, bind, Except.bind]

/-- What is gathered from attributes with distinct names that bind no namespace. -/
theorem addWritten_eq {as : List Attribute} {ws : List WrittenAttribute} {element : List Char}
    (has : ∀ a ∈ as, a.Valid) (hws : ws.map WrittenAttribute.pair = as.map pair) {g : Gathered}
    (hnames : (as.map Attribute.name).Nodup) (hnew : ∀ a ∈ as, a.name ∉ g.names) (start : Nat) :
    ∃ names, Gathered.addWritten {} element start g ws =
      .ok { g with names, plain := g.plain ++ plain as,
                   qualified := g.qualified ++ qualified as } := by
  induction as generalizing ws g with
  | nil =>
    obtain rfl : ws = [] := by simpa using hws
    exact ⟨g.names, by simp [Gathered.addWritten, plain, qualified]⟩
  | cons a as ih =>
    obtain ⟨w, ws, rfl⟩ : ∃ w more, ws = w :: more := by
      cases ws with
      | nil => cases hws
      | cons w more => exact ⟨w, more, rfl⟩
    obtain ⟨⟨hname, hraw⟩, hws⟩ := by simpa [WrittenAttribute.pair, pair] using hws
    have ha := has a (by simp)
    obtain ⟨hfresh, hnames⟩ := List.nodup_cons.mp hnames
    have hcontains : g.names.contains a.name = false := by
      simpa using hnew a (by simp)
    have hvalue : attributeValue {} (Declarations.isTokens {} element a.name) w.leftAfter a.raw =
        .ok a.value := attributeValue_after ha.value.2 _
    have hadd : g.add a.name a.value = .ok { g with
        names := a.name :: g.names
        plain := g.plain ++ plain [a]
        qualified := g.qualified ++ qualified [a] } := by
      rw [Gathered.add]
      simp only [ha.unbound]
      cases hq : a.name.qualifier <;> simp [plain, qualified, hq]
    obtain ⟨names, hrest⟩ := ih (fun b hb => has b (List.mem_cons_of_mem _ hb))
      (by simpa [WrittenAttribute.pair, pair] using hws) hnames
      (g := { g with
        names := a.name :: g.names
        plain := g.plain ++ plain [a]
        qualified := g.qualified ++ qualified [a] }) (by
          intro b hb
          simp only [List.mem_cons, not_or]
          refine ⟨?_, hnew b (List.mem_cons_of_mem _ hb)⟩
          rintro he
          exact hfresh (he ▸ List.mem_map_of_mem hb))
    refine ⟨names, ?_⟩
    rw [Gathered.addWritten, hname, hcontains, hraw, hvalue]
    simp only [hadd, hrest, Bool.false_eq_true, if_false]
    simp [plain, qualified, List.filterMap_cons]
    cases a.name.qualifier <;> simp

end Attribute

namespace Content

open Attribute

def openingTag (n : List Char) (as : List Attribute) : List Char :=
  '<' :: (n ++ as.flatMap written ++ ['>'])

def closingTag (n : List Char) : List Char := '<' :: '/' :: (n ++ ['>'])

theorem length_le_written (as : List Attribute) : as.length ≤ (as.flatMap written).length := by
  induction as with
  | nil => simp
  | cons a as ih =>
    simp only [List.flatMap_cons, List.length_append, List.length_cons, written]
    omega

theorem token_openingTag {n : List Char} (hn : isBase n = true) {as : List Attribute}
    (has : ∀ a ∈ as, a.Valid) (rest : List Char) :
    ∃ tag, token (openingTag n as ++ rest) = .ok (.opening tag, rest) ∧
      tag.shape = (⟨none, n⟩, as.map pair, false) := by
  have hends : ∀ c ∈ (as.flatMap written ++ '>' :: rest).head?,
      isNameChar c = false ∧ c ≠ ':' := by
    cases as with
    | nil =>
      simp only [List.flatMap_nil, List.nil_append, List.head?_cons, Option.mem_some_iff,
        forall_eq']
      decide
    | cons a as =>
      simp only [List.flatMap_cons, written, List.cons_append, List.head?_cons,
        Option.mem_some_iff, forall_eq']
      decide
  have hname : scanName (n ++ (as.flatMap written ++ '>' :: rest)) =
      .ok (⟨none, n⟩, as.flatMap written ++ '>' :: rest) := by
    refine scanName_written (n := ⟨none, n⟩) ?_ hends
    simpa [Name.isWritten] using hn
  have hlen : as.length < (as.flatMap written ++ '>' :: rest).length + 1 := by
    have hflat := length_le_written as
    simp only [List.length_append]
    omega
  obtain ⟨ws, hws, hpairs⟩ := scanAttributes_written has rest hlen
  have hscan : scanOpeningTag (n ++ (as.flatMap written ++ '>' :: rest)) =
      .ok (⟨⟨none, n⟩, ws, false⟩, rest) := by
    simp only [scanOpeningTag, hname, hws, bind, Except.bind]
  refine ⟨⟨⟨none, n⟩, ws, false⟩, ?_, by simp [OpeningTag.shape, hpairs]⟩
  obtain ⟨c, cs, rfl, hc⟩ := isBase_cons hn
  have hopening : openingTag (c :: cs) as ++ rest =
      '<' :: c :: (cs ++ (as.flatMap written ++ '>' :: rest)) := by
    simp [openingTag]
  rw [List.cons_append] at hscan
  rw [hopening]
  exact (Token.Found.opening (opening_of_isNameStart hc) hscan).token_eq

theorem token_closingTag {n : List Char} (hn : isBase n = true) (rest : List Char) :
    ∃ left, token (closingTag n ++ rest) = .ok (.closing n left, rest) := by
  obtain ⟨c, cs, rfl, hc⟩ := isBase_cons hn
  have hall : ∀ d ∈ c :: cs, (isNameChar d || d == ':') = true := by
    intro d hd
    simp only [isBase, Bool.and_eq_true, List.all_eq_true] at hn
    simp [hn.2 d hd]
  have hends : ∀ d ∈ ('>' :: rest).head?, (isNameChar d || d == ':') = false := by
    simp only [List.head?_cons, Option.mem_some_iff, forall_eq']
    decide
  have hspan := span_run hall hends
  have hclose : skipBlanks ('>' :: rest) = '>' :: rest := rfl
  rw [List.cons_append] at hspan
  have hscan : scanClosingTag (c :: (cs ++ '>' :: rest)) = .ok (c :: cs, rest) := by
    simp only [scanClosingTag, hc, if_true, hspan, hclose]
  have hclosing : closingTag (c :: cs) ++ rest = '<' :: '/' :: c :: (cs ++ '>' :: rest) := by
    simp [closingTag]
  exact ⟨_, hclosing ▸ (Token.Found.closing hscan).token_eq⟩

theorem ofTag_written {n : List Char} {as : List Attribute} (has : ∀ a ∈ as, a.Valid)
    (hnames : (as.map Attribute.name).Nodup) {tag : OpeningTag}
    (htag : tag.shape = (⟨none, n⟩, as.map pair, false)) {bs : Bindings}
    (hqualified : Gathered.checkQualified bs [] (qualified as) = .ok ()) (start : Nat) :
    OpenElement.ofTag {} bs start tag =
      .ok { written := n, name := n, attributes := plain as, bindings := bs } := by
  obtain ⟨hname, hpairs, -⟩ := by simpa [OpeningTag.shape] using htag
  rw [OpenElement.ofTag_eq_ok_iff]
  obtain ⟨names, hg⟩ : ∃ names, Gathered.addWritten {} tag.name.written start { bindings := bs }
      tag.attributes = .ok ⟨names, bs, [] ++ plain as, [] ++ qualified as⟩ :=
    addWritten_eq has (by simpa using hpairs) hnames (by simp) start
  refine ⟨_, hg, by simpa using hqualified, ?_, ?_⟩
  · simp [hname]
  · simp [hname, Name.written]

/-- Content of an element that is read as nodes. -/
def Holds (bs : Bindings) (cs : List Char) (nodes : List Node) : Prop :=
  ∀ {inner : OpenElement} {outer : List OpenElement} {rest : List Char}
    {result : Except Fault (Scanned Element)}, inner.bindings = bs →
    Runs { inner with content := nodes.reverse ++ inner.content } outer ('<' :: rest) result →
    Runs inner outer (cs ++ '<' :: rest) result

/-- An element that is written with its tags is read. -/
theorem reads_written {bs : Bindings} {n : List Char} (hn : isBase n = true) {as : List Attribute}
    (has : ∀ a ∈ as, a.Valid) (hnames : (as.map Attribute.name).Nodup)
    (hqualified : Gathered.checkQualified bs [] (qualified as) = .ok ()) {cs : List Char}
    {nodes : List Node} (hcs : Holds bs cs nodes) :
    Reads bs (openingTag n as ++ cs ++ closingTag n) ⟨n, plain as, nodes⟩ := by
  intro inner outer rest result hinner hruns
  obtain ⟨tag, htoken, hshape⟩ := token_openingTag hn has (cs ++ closingTag n ++ rest)
  obtain ⟨left, hclosing⟩ := token_closingTag hn rest
  have hempty : tag.isEmpty = false := congrArg (·.2.2) hshape
  have hopened := ofTag_written has hnames hshape hqualified
    (openingTag n as ++ cs ++ closingTag n ++ rest).length
  rw [← hinner] at hopened
  simp only [List.append_assoc] at htoken hopened ⊢
  refine Runs.step (.opening htoken hopened hempty) ?_
  refine hcs hinner (Runs.step (.closing rfl hclosing) ?_)
  simpa [OpenElement.close] using hruns

/-- A tag that opens an element, read by itself. -/
def Opens (tag : List Char) (e : OpenElement) : Prop :=
  ∃ t, token tag = .ok (.opening t, []) ∧ t.isEmpty = false ∧
    OpenElement.ofTag {} Namespace.standard tag.length t = .ok e

theorem Opens.content {tag : List Char} {e : OpenElement} (h : Opens tag e) : e.content = [] := by
  obtain ⟨t, -, -, htag⟩ := h
  obtain ⟨g, -, -, -, rfl⟩ := OpenElement.ofTag_eq_ok_iff.mp htag
  rfl

/-- What comes of a text that begins with a tag is what comes of the rest, inside the element that
the tag opens. The tag is read by itself; what follows moves its place and nothing else. -/
theorem element_opened {tag : List Char} {e : OpenElement} (h : Opens tag e) (cs : List Char) :
    ∃ e', e.Alike e' ∧ ∀ {result : Except Fault (Scanned Element)}, Runs e' [] cs result →
      element {} (tag ++ cs) = result := by
  obtain ⟨t, htoken, hopen, htag⟩ := h
  obtain ⟨_, htoken', @⟨_, t', hshape⟩⟩ := token_append htoken (by simp) cs
  obtain ⟨e', htag', halike⟩ := OpenElement.ofTag_alike htag hshape (fun _ => rfl)
    (tag ++ cs).length
  have hopen' : t'.isEmpty = false := (OpeningTag.isEmpty_of_shape hshape).trans hopen
  refine ⟨e', halike, fun hruns => ?_⟩
  rw [element, htoken', List.nil_append]
  simp only [htag', hopen', Bool.false_eq_true, if_false]
  apply hruns
  rw [List.length_append]
  omega

/-- A text that consists of two tags with content between them is read as an element. -/
theorem element_tags {tag closing : List Char} {e : OpenElement} {left : Nat} (h : Opens tag e)
    (hclosing : token closing = .ok (.closing e.written left, [])) (content : List Char) :
    ∃ bs, e.bindings.Alike bs ∧ ∀ {nodes : List Node}, Holds bs content nodes →
      element {} (tag ++ (content ++ closing)) = .ok (⟨e.name, e.attributes, nodes⟩, []) := by
  obtain ⟨e', halike, hruns⟩ := element_opened h (content ++ closing)
  refine ⟨e'.bindings, halike.bindings, fun {nodes} hnodes => ?_⟩
  obtain ⟨more, rfl⟩ := head_of_token hclosing rfl
  have hlast : Runs { e' with content := nodes.reverse ++ e'.content } [] ('<' :: more)
      (.ok (OpenElement.close { e' with content := nodes.reverse ++ e'.content }, [])) := by
    rw [← halike.written] at hclosing
    exact Runs.last hclosing
  have hclose : OpenElement.close { e' with content := nodes.reverse ++ e'.content } =
      ⟨e.name, e.attributes, nodes⟩ := by
    simp [OpenElement.close, halike.name, halike.attributes, halike.content, h.content]
  rw [← hclose]
  exact hruns (hnodes rfl hlast)

end Content

end Localization.Xml
