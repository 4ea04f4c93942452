import Localization.Proofs.Xml.Token
import Localization.Xml.Content

/-! The element that a tag opens depends on what the tag says, and not on where it stands.
Namespaces of names without a qualifier play no part. -/

namespace Localization.Xml

/-- What follows a value shows in its faults alone. -/
theorem valueWith_after {expand : List Char → Except ValueFault (List Char)} {after fuel : Nat}
    {cs v : List Char} (h : valueWith expand after fuel cs = .ok v) (after' : Nat) :
    valueWith expand after' fuel cs = .ok v := by
  induction fuel generalizing cs v with
  | zero => exact h
  | succ fuel ih =>
    have hmap : ∀ {more v : List Char} (f : List Char → List Char),
        (valueWith expand after fuel more).map f = .ok v →
          (valueWith expand after' fuel more).map f = .ok v := by
      intro more v f hv
      obtain ⟨u, hu, he⟩ := map_eq_ok_iff.mp hv
      exact map_eq_ok_iff.mpr ⟨u, ih hu, he⟩
    rw [valueWith.eq_def] at h ⊢
    dsimp only at h ⊢
    split at h
    · exact h
    · cases h
    · split at h
      · cases h
      · cases h
      · split at h
        · exact hmap _ h
        · cases h
      · split at h
        · exact hmap _ h
        · split at h
          · exact hmap _ h
          · cases h
    · exact hmap _ h
    · exact hmap _ h

theorem attributeValue_after {d : Declarations} {isTokens : Bool} {after : Nat} {cs v : List Char}
    (h : attributeValue d isTokens after cs = .ok v) (after' : Nat) :
    attributeValue d isTokens after' cs = .ok v := by
  obtain ⟨u, hu, he⟩ := map_eq_ok_iff.mp h
  exact map_eq_ok_iff.mpr ⟨u, valueWith_after hu after', he⟩

def Bindings.Alike (bs bs' : Bindings) : Prop :=
  ∀ q, Namespace.find? bs q = Namespace.find? bs' q

theorem Bindings.Alike.append {bs bs' : Bindings} (h : bs.Alike bs') (new : Bindings) :
    Bindings.Alike (new ++ bs) (new ++ bs') := by
  intro q
  have hq := h q
  unfold Namespace.find? at hq ⊢
  rw [List.find?_append, List.find?_append]
  cases hnew : new.find? fun b => b.1 = some q with
  | none => simpa using hq
  | some b => rfl

theorem bind_around {bs bound : Bindings} {q : Option (List Char)} {uri : List Char}
    (h : Namespace.bind bs q uri = .ok bound) :
    bound = (q, uri) :: bs ∧ ∀ bs', Namespace.bind bs' q uri = .ok ((q, uri) :: bs') := by
  unfold Namespace.bind at h ⊢
  by_cases h1 : (uri.isEmpty && q.isSome) = true
  · rw [if_pos h1] at h; cases h
  by_cases h2 : q = some "xmlns".toList
  · rw [if_neg h1, if_pos h2] at h; cases h
  by_cases h3 : uri.contains '\x7d' = true
  · rw [if_neg h1, if_neg h2, if_pos h3] at h; cases h
  by_cases h4 : (decide (q = some "xml".toList) && decide (uri ≠ Namespace.xml)) = true
  · rw [if_neg h1, if_neg h2, if_neg h3, if_pos h4] at h; cases h
  by_cases h5 : (decide (q ≠ some "xml".toList) &&
      (decide (uri = Namespace.xml) || decide (uri = Namespace.xmlns))) = true
  · rw [if_neg h1, if_neg h2, if_neg h3, if_neg h4, if_pos h5] at h; cases h
  rw [if_neg h1, if_neg h2, if_neg h3, if_neg h4, if_neg h5] at h
  refine ⟨(Except.ok.inj h).symm, fun bs' => ?_⟩
  rw [if_neg h1, if_neg h2, if_neg h3, if_neg h4, if_neg h5]

namespace Gathered

structure Alike (bs bs' : Bindings) (g g' : Gathered) : Prop where
  names : g'.names = g.names
  plain : g'.plain = g.plain
  qualified : g'.qualified = g.qualified
  bindings : ∃ new, g.bindings = new ++ bs ∧ g'.bindings = new ++ bs'

variable {bs bs' : Bindings} {g k g' : Gathered}

theorem add_alike (hg : Alike bs bs' g g') {n : Name} {v : List Char} (h : g.add n v = .ok k) :
    ∃ k', g'.add n v = .ok k' ∧ Alike bs bs' k k' := by
  obtain ⟨hnames, hplain, hqualified, new, hnew, hnew'⟩ := hg
  unfold add at h ⊢
  dsimp only at h ⊢
  split at h
  · rename_i q hq
    split at h
    · rename_i bound hbound
      obtain ⟨rfl, hbind⟩ := bind_around hbound
      cases h
      rw [hbind]
      exact ⟨_, rfl, by simp [hnames], hplain, hqualified, (q, v) :: new, by simp [hnew],
        by simp [hnew']⟩
    · cases h
  · split at h <;> cases h
    · exact ⟨_, rfl, by simp [hnames], hplain, by simp [hqualified], new, hnew, hnew'⟩
    · exact ⟨_, rfl, by simp [hnames], by simp [hplain], hqualified, new, hnew, hnew'⟩

theorem addWritten_alike {d : Declarations} {element : List Char} {start : Nat}
    {ws ws' : List WrittenAttribute} (hg : Alike bs bs' g g')
    (hws : ws'.map WrittenAttribute.pair = ws.map WrittenAttribute.pair)
    (h : addWritten d element start g ws = .ok k) (start' : Nat) :
    ∃ k', addWritten d element start' g' ws' = .ok k' ∧ Alike bs bs' k k' := by
  induction ws generalizing g g' ws' with
  | nil =>
    obtain rfl : ws' = [] := by simpa using hws
    cases h
    exact ⟨g', rfl, hg⟩
  | cons w ws ih =>
    obtain ⟨w', ws', rfl⟩ : ∃ w' more, ws' = w' :: more := by
      cases ws' with
      | nil => cases hws
      | cons w' more => exact ⟨w', more, rfl⟩
    obtain ⟨⟨hname, hvalue⟩, hws⟩ := by simpa [WrittenAttribute.pair] using hws
    rw [addWritten] at h
    split at h
    · cases h
    · rename_i hnew
      split at h
      · cases h
      · rename_i value hv
        split at h
        · cases h
        · rename_i after hadd
          obtain ⟨k', hk', hkk⟩ := add_alike hg hadd
          have hv := attributeValue_after hv w'.leftAfter
          rw [addWritten, hname, hg.names, if_neg hnew, hvalue, hv]
          simp only [hk']
          exact ih hkk (by simpa [WrittenAttribute.pair] using hws) h

theorem checkQualified_alike (h : bs.Alike bs') (seen qualified : List (List Char × List Char)) :
    checkQualified bs seen qualified = checkQualified bs' seen qualified := by
  induction qualified generalizing seen with
  | nil => rfl
  | cons q qualified ih =>
    obtain ⟨q, base⟩ := q
    rw [checkQualified, checkQualified, h q]
    split
    · rfl
    · rw [ih]

end Gathered

namespace OpenElement

structure Alike (e e' : OpenElement) : Prop where
  written : e'.written = e.written
  name : e'.name = e.name
  attributes : e'.attributes = e.attributes
  content : e'.content = e.content
  bindings : Bindings.Alike e.bindings e'.bindings

variable {e e' : OpenElement}

theorem Alike.close (h : Alike e e') : e'.close = e.close := by
  rw [OpenElement.close, OpenElement.close, h.name, h.attributes, h.content]

theorem Alike.push (h : Alike e e') (n : Node) : Alike (e.push n) (e'.push n) :=
  ⟨h.written, h.name, h.attributes, by simp [OpenElement.push, h.content], h.bindings⟩

/-- The element of a tag in a document without declarations. -/
theorem ofTag_eq_ok_iff {around : Bindings} {start : Nat} {tag : OpeningTag} {e : OpenElement} :
    ofTag {} around start tag = .ok e ↔ ∃ g,
      Gathered.addWritten {} tag.name.written start { bindings := around } tag.attributes = .ok g ∧
      Gathered.checkQualified g.bindings [] g.qualified = .ok () ∧
      (∀ q, tag.name.qualifier = some q → (Namespace.find? g.bindings q).isNone = false) ∧
      e = { written := tag.name.written, name := tag.name.base, attributes := g.plain,
            bindings := g.bindings } := by
  unfold ofTag
  dsimp only
  rw [bind_eq_ok_iff]
  have hrules : Declarations.rulesOf {} tag.name.written = [] := rfl
  simp only [hrules, Gathered.addDeclared, Except.mapError, bind, Except.bind]
  constructor
  · rintro ⟨g, hg, h⟩
    refine ⟨g, hg, ?_⟩
    cases hq : Gathered.checkQualified g.bindings [] g.qualified with
    | error p => simp [hq] at h
    | ok u =>
      simp only [hq] at h
      cases hn : tag.name.qualifier with
      | none =>
        simp only [hn, pure, Except.pure] at h
        exact ⟨rfl, by simp, (Except.ok.inj h).symm⟩
      | some q =>
        simp only [hn] at h
        split at h
        · cases h
        · rename_i hfind
          refine ⟨rfl, ?_, (Except.ok.inj h).symm⟩
          rintro _ ⟨rfl⟩
          exact eq_false_of_ne_true hfind
  · rintro ⟨g, hg, hq, hn, rfl⟩
    refine ⟨g, hg, ?_⟩
    simp only [hq]
    cases hname : tag.name.qualifier with
    | none => rfl
    | some q =>
      simp only [hn q hname]
      rfl

theorem ofTag_alike {around around' : Bindings} {start : Nat} {tag tag' : OpeningTag}
    (h : ofTag {} around start tag = .ok e) (htag : tag'.shape = tag.shape)
    (haround : around.Alike around') (start' : Nat) :
    ∃ e', ofTag {} around' start' tag' = .ok e' ∧ Alike e e' := by
  obtain ⟨hname, hattributes, -⟩ := by simpa [OpeningTag.shape] using htag
  obtain ⟨g, hg, hq, hn, rfl⟩ := ofTag_eq_ok_iff.mp h
  have halike : Gathered.Alike around around' { bindings := around } { bindings := around' } :=
    ⟨rfl, rfl, rfl, [], rfl, rfl⟩
  obtain ⟨g', hg', -, hplain, hqualified, new, hnew, hnew'⟩ :=
    Gathered.addWritten_alike halike (by simpa [WrittenAttribute.pair] using hattributes) hg start'
  have hbindings : Bindings.Alike g.bindings g'.bindings := by
    rw [hnew, hnew']
    exact haround.append new
  refine ⟨_, ofTag_eq_ok_iff.mpr ⟨g', ?_, ?_, ?_, rfl⟩,
    ⟨by rw [hname], by rw [hname], hplain, rfl, hbindings⟩⟩
  · rw [hname]
    exact hg'
  · rw [hqualified, ← Gathered.checkQualified_alike hbindings]
    exact hq
  · intro q hqq
    rw [← hbindings q]
    exact hn q (hname ▸ hqq)

end OpenElement

end Localization.Xml
