import Localization.Proofs.Xml.Written

/-! What stands between tags: character data, in which references and line ends stand for single
characters, and elements with character data around them. -/

namespace Localization.Xml.Content

/-- Character data, with the characters that it stands for. -/
inductive CharData : List Char → List Char → Prop
  | nil : CharData [] []
  | plain {c : Char} {raw cs : List Char} (hc : isPlain c = true) (rest : CharData raw cs) :
    CharData (c :: raw) (c :: cs)
  | bracket {raw cs : List Char} (hends : ∀ tail, raw ≠ ']' :: '>' :: tail)
    (rest : CharData raw cs) : CharData (']' :: raw) (']' :: cs)
  | lineEnd {raw cs : List Char} (rest : CharData raw cs) : CharData ('\r' :: '\n' :: raw) ('\n' :: cs)
  | return {raw cs : List Char} (hends : ∀ tail, raw ≠ '\n' :: tail) (rest : CharData raw cs) :
    CharData ('\r' :: raw) ('\n' :: cs)
  | reference {ref raw cs : List Char} {c : Char}
    (href : ∀ after, token ('&' :: (ref ++ after)) = .ok (.chars [c], after))
    (rest : CharData raw cs) : CharData ('&' :: (ref ++ raw)) (c :: cs)

/-- A run of plain characters at the start stands for itself. -/
theorem CharData.run {run raw cs : List Char} (h : CharData (run ++ raw) cs)
    (hrun : ∀ c ∈ run, isPlain c = true) : ∃ ds, cs = run ++ ds ∧ CharData raw ds := by
  induction run generalizing cs with
  | nil => exact ⟨cs, rfl, h⟩
  | cons c run ih =>
    have hc := hrun c (by simp)
    generalize hall : c :: run ++ raw = all at h
    cases h with
    | nil => cases hall
    | plain _ rest =>
      obtain ⟨rfl, rfl⟩ := List.cons.inj hall
      obtain ⟨ds, rfl, hds⟩ := ih rest fun d hd => hrun d (List.mem_cons_of_mem _ hd)
      exact ⟨ds, rfl, hds⟩
    | bracket =>
      obtain ⟨rfl, -⟩ := List.cons.inj hall
      exact absurd hc (by decide)
    | lineEnd =>
      obtain ⟨rfl, -⟩ := List.cons.inj hall
      exact absurd hc (by decide)
    | «return» =>
      obtain ⟨rfl, -⟩ := List.cons.inj hall
      exact absurd hc (by decide)
    | reference =>
      obtain ⟨rfl, -⟩ := List.cons.inj hall
      exact absurd hc (by decide)

/-- Character data after character data, if the latter cannot continue an end of a section or of a
line. -/
theorem CharData.append {raw cs raw' cs' : List Char} (h : CharData raw cs) (h' : CharData raw' cs')
    (hcr : '\r' ∉ raw) (hgt : '>' ∉ raw') : CharData (raw ++ raw') (cs ++ cs') := by
  induction h with
  | nil => exact h'
  | plain hc _ ih =>
    simp only [List.mem_cons, not_or] at hcr
    exact .plain hc (ih hcr.2)
  | @bracket raw _ hends _ ih =>
    simp only [List.mem_cons, not_or] at hcr
    refine .bracket (fun tail htail => ?_) (ih hcr.2)
    rcases raw with _ | ⟨d, _ | ⟨e, raw⟩⟩
    · have htail : raw' = ']' :: '>' :: tail := htail
      exact hgt (by simp [htail])
    · obtain ⟨rfl, rfl⟩ := by simpa using htail
      exact hgt (by simp)
    · obtain ⟨rfl, rfl, -⟩ := by simpa using htail
      exact hends raw rfl
  | lineEnd => simp at hcr
  | «return» => simp at hcr
  | reference href _ ih =>
    simp only [List.mem_cons, List.mem_append, not_or] at hcr
    rw [List.cons_append, List.append_assoc]
    exact .reference href (ih hcr.2.2)

theorem charData_blanks {gap : List Char} (h : ∀ c ∈ gap, isBlank c = true) :
    ∃ cs, CharData gap cs := by
  induction hlen : gap.length using Nat.strong_induction_on generalizing gap with
  | _ n ih =>
  subst hlen
  cases gap with
  | nil => exact ⟨[], .nil⟩
  | cons c gap =>
    have hc := h c (by simp)
    have hgap : ∀ d ∈ gap, isBlank d = true := fun d hd => h d (List.mem_cons_of_mem _ hd)
    obtain ⟨cs, hcs⟩ := ih gap.length (by simp) hgap rfl
    by_cases hcr : c = '\r'
    · subst hcr
      by_cases hlf : ∃ tail, gap = '\n' :: tail
      · obtain ⟨tail, rfl⟩ := hlf
        obtain ⟨ds, hds⟩ := ih tail.length (by simp only [List.length_cons]; omega)
          (fun d hd => hgap d (List.mem_cons_of_mem _ hd)) rfl
        exact ⟨'\n' :: ds, .lineEnd hds⟩
      · exact ⟨'\n' :: cs, .return (fun tail htail => hlf ⟨tail, htail⟩) hcs⟩
    · simp only [isBlank, Bool.or_eq_true, beq_iff_eq, hcr, or_false] at hc
      refine ⟨c :: cs, .plain ?_ hcs⟩
      rcases hc with (rfl | rfl) | rfl <;> decide

def IsText (nodes : List Node) : Prop := ∀ n ∈ nodes, ∃ cs, n = .text cs

theorem holds_nil (bs : Bindings) : Holds bs [] [] := by
  intro inner outer rest result _ hruns
  simpa using hruns

theorem holds_chars {bs : Bindings} {raw raw' plain : List Char} {nodes : List Node}
    (htoken : ∀ rest, token (raw ++ '<' :: rest) = .ok (.chars plain, raw' ++ '<' :: rest))
    (h : Holds bs raw' nodes) : Holds bs raw (.text plain :: nodes) := by
  intro inner outer rest result hinner hruns
  refine Runs.step (.chars (htoken rest) (by simp)) (h hinner ?_)
  simpa [OpenElement.push] using hruns

/-- Plain characters up to another one make up a token. -/
theorem token_run {run tail : List Char} (hne : run ≠ []) (hplain : ∀ c ∈ run, isPlain c = true)
    (htail : ∀ c ∈ tail.head?, isPlain c = false) (after : List Char) :
    token (run ++ tail ++ '<' :: after) = .ok (.chars run, tail ++ '<' :: after) := by
  have hends : ∀ d ∈ (tail ++ '<' :: after).head?, isPlain d = false := by
    cases tail with
    | nil =>
      simp only [List.nil_append, List.head?_cons, Option.mem_some_iff, forall_eq']
      decide
    | cons d tail => simpa using htail
  obtain ⟨d, run, rfl⟩ := List.exists_cons_of_ne_nil hne
  rw [List.append_assoc, List.cons_append, token_plain _ (hplain d (by simp)),
    ← List.cons_append, takeWhile_run hplain hends, dropWhile_run hplain hends]

/-- Character data is read as text with the characters that it stands for. -/
theorem holds_charData (bs : Bindings) {raw cs : List Char} (h : CharData raw cs) :
    ∃ texts, IsText texts ∧ Node.charsOf texts = cs ∧ Holds bs raw texts := by
  induction hlen : raw.length using Nat.strong_induction_on generalizing raw cs with
  | _ n ih =>
  subst hlen
  have hstep : ∀ {raw' plain ds : List Char},
      (∀ rest, token (raw ++ '<' :: rest) = .ok (.chars plain, raw' ++ '<' :: rest)) →
      raw'.length < raw.length → CharData raw' ds → cs = plain ++ ds →
      ∃ texts, IsText texts ∧ Node.charsOf texts = cs ∧ Holds bs raw texts := by
    rintro raw' plain ds htoken hlen hraw' rfl
    obtain ⟨texts, htexts, hchars, hholds⟩ := ih _ hlen hraw' rfl
    refine ⟨.text plain :: texts, ?_, by simp [Node.charsOf, Node.chars, hchars],
      holds_chars htoken hholds⟩
    rintro n (_ | ⟨_, hn⟩)
    · exact ⟨plain, rfl⟩
    · exact htexts n hn
  cases h with
  | nil => exact ⟨[], by simp [IsText], rfl, holds_nil bs⟩
  | @plain c raw ds hc rest =>
    obtain ⟨run, tail, hrun, hplain, htail⟩ := exists_run isPlain (c :: raw)
    have hall : CharData (run ++ tail) (c :: ds) := hrun ▸ CharData.plain hc rest
    obtain ⟨es, hes, hrest⟩ := hall.run hplain
    have hne : run ≠ [] := by
      rintro rfl
      rw [List.nil_append] at hrun
      subst hrun
      simp [hc] at htail
    refine hstep (fun after => hrun ▸ token_run hne hplain htail after) ?_ hrest hes
    have := List.length_pos_iff.mpr hne
    rw [hrun, List.length_append]
    omega
  | @bracket raw ds hends rest =>
    have hcs : ']' :: ds = [']'] ++ ds := rfl
    refine hstep (fun after => token_bracket fun tail htail => ?_) (by simp) rest hcs
    rcases raw with _ | ⟨d, _ | ⟨e, raw⟩⟩
    · cases htail
    · simp at htail
    · obtain ⟨rfl, rfl, -⟩ := by simpa using htail
      exact hends raw rfl
  | @lineEnd raw ds rest =>
    have hcs : '\n' :: ds = ['\n'] ++ ds := rfl
    exact hstep (fun after => rfl) (by simp only [List.length_cons]; omega) rest hcs
  | @«return» raw ds hends rest =>
    have hcs : '\n' :: ds = ['\n'] ++ ds := rfl
    refine hstep (fun after => token_return fun tail htail => ?_) (by simp) rest hcs
    rcases raw with _ | ⟨d, raw⟩
    · cases htail
    · obtain ⟨rfl, -⟩ := by simpa using htail
      exact hends raw rfl
  | @reference ref raw ds c href rest =>
    have hcs : c :: ds = [c] ++ ds := rfl
    refine hstep (fun after => ?_) ?_ rest hcs
    · rw [List.cons_append, List.append_assoc, href]
    · simp only [List.length_cons, List.length_append]
      omega

/-! Elements among text. -/

def elementsOf (nodes : List Node) : List Element :=
  nodes.filterMap fun
    | .element n attributes content => some ⟨n, attributes, content⟩
    | .text _ => none

theorem elementsOf_text {nodes : List Node} (h : IsText nodes) : elementsOf nodes = [] := by
  rw [elementsOf, List.filterMap_eq_nil_iff]
  intro n hn
  obtain ⟨cs, rfl⟩ := h n hn
  rfl

theorem children_eq (e : Element) (name : String) :
    e.children name = (elementsOf e.content).filter fun c => c.name = name.toList := by
  rw [Element.children, elementsOf, List.filter_filterMap]
  congr 1
  funext n
  cases n with
  | text cs => rfl
  | element n attributes content => simp [Option.filter, eq_comm]

/-- An element that is read, with character data before it. -/
def Spaced (bs : Bindings) (raw : List Char) (e : Element) : Prop :=
  ∃ gap blanks cs, raw = gap ++ cs ∧ CharData gap blanks ∧ cs.head? = some '<' ∧ Reads bs cs e

theorem holds_spaced {bs : Bindings} {raws : List (List Char)} {es : List Element}
    (h : List.Forall₂ (Spaced bs) raws es) {last blanks : List Char} (hlast : CharData last blanks) :
    ∃ nodes, Holds bs (raws.flatten ++ last) nodes ∧ elementsOf nodes = es := by
  induction h with
  | nil =>
    obtain ⟨texts, htexts, -, hholds⟩ := holds_charData bs hlast
    refine ⟨texts, ?_, elementsOf_text htexts⟩
    rw [List.flatten_nil, List.nil_append]
    exact hholds
  | @cons raw e raws es hraw _ ih =>
    obtain ⟨gap, blanks, cs, rfl, hgap, hhead, hreads⟩ := hraw
    obtain ⟨texts, htexts, -, hholds⟩ := holds_charData bs hgap
    obtain ⟨nodes, hnodes, helements⟩ := ih
    obtain ⟨c, cs, rfl⟩ : ∃ c more, cs = c :: more := by
      cases cs with
      | nil => cases hhead
      | cons c more => exact ⟨c, more, rfl⟩
    obtain rfl : c = '<' := by simpa using hhead
    refine ⟨texts ++ e.toNode :: nodes, ?_, ?_⟩
    · intro inner outer rest result hinner hruns
      have hsplit : ((gap ++ '<' :: cs) :: raws).flatten ++ last ++ '<' :: rest =
          gap ++ '<' :: (cs ++ (raws.flatten ++ last ++ '<' :: rest)) := by simp
      rw [hsplit]
      refine hholds hinner ?_
      rw [← List.cons_append]
      refine hreads (by simpa using hinner) (hnodes (by simpa [OpenElement.push] using hinner) ?_)
      simpa [OpenElement.push] using hruns
    · rw [elementsOf, List.filterMap_append]
      have htexts := elementsOf_text htexts
      rw [elementsOf] at htexts
      rw [htexts, List.nil_append, ← helements]
      rfl

section Written

open Attribute

variable {bs : Bindings} {n : List Char}

theorem reads_charData (hn : isBase n = true) (as : List Attribute) (has : ∀ a ∈ as, a.Valid)
    (hnames : (as.map Attribute.name).Nodup)
    (hqualified : Gathered.checkQualified bs [] (qualified as) = .ok ()) {raw cs : List Char}
    (h : CharData raw cs) : ∃ e, Reads bs (openingTag n as ++ raw ++ closingTag n) e ∧
      e.name = n ∧ e.attributes = plain as ∧ e.chars = cs := by
  obtain ⟨texts, -, hchars, hholds⟩ := holds_charData bs h
  exact ⟨_, reads_written hn has hnames hqualified hholds, rfl, rfl, hchars⟩

theorem reads_spaced (hn : isBase n = true) (as : List Attribute) (has : ∀ a ∈ as, a.Valid)
    (hnames : (as.map Attribute.name).Nodup)
    (hqualified : Gathered.checkQualified bs [] (qualified as) = .ok ())
    {raws : List (List Char)} {es : List Element} (h : List.Forall₂ (Spaced bs) raws es)
    {last blanks : List Char} (hlast : CharData last blanks) :
    ∃ e, Reads bs (openingTag n as ++ (raws.flatten ++ last) ++ closingTag n) e ∧
      e.name = n ∧ e.attributes = plain as ∧ elementsOf e.content = es := by
  obtain ⟨nodes, hholds, helements⟩ := holds_spaced h hlast
  exact ⟨_, reads_written hn has hnames hqualified hholds, rfl, rfl, helements⟩

end Written

end Localization.Xml.Content
