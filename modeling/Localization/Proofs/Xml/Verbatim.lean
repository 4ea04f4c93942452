import Localization.Proofs.Xml.Reading

/-! Characters that were put between quotes as they are, and are read as they are. Escapes and line
ends make a value shorter or change it, and a quote ends it, so there are none among the characters. -/

namespace Localization.Xml

/-- The characters of a value are those before the first quote. -/
theorem scanValue_split {quote : Char} {cs raw r : List Char}
    (h : scanValue quote cs = .ok (raw, r)) : cs = raw ++ quote :: r ∧
      ∀ c ∈ raw, c ≠ quote ∧ c ≠ '<' ∧ isLegal c = true := by
  induction cs generalizing raw with
  | nil => cases h
  | cons c cs ih =>
    have hmap : c ≠ quote → ¬ (decide (c = '<') || !isLegal c) = true →
        ((scanValue quote cs).map fun r => (c :: r.1, r.2)) = .ok (raw, r) →
        c :: cs = raw ++ quote :: r ∧ ∀ d ∈ raw, d ≠ quote ∧ d ≠ '<' ∧ isLegal d = true := by
      intro hquote hc hmap
      obtain ⟨⟨raw', r'⟩, hv, he⟩ := map_eq_ok_iff.mp hmap
      obtain ⟨rfl, rfl⟩ := Prod.mk.inj he
      obtain ⟨hcs, hraw⟩ := ih hv
      simp only [Bool.or_eq_true, not_or, decide_eq_true_eq, Bool.not_eq_true', Bool.not_eq_false]
        at hc
      exact ⟨by rw [List.cons_append, ← hcs], List.forall_mem_cons.mpr ⟨⟨hquote, hc⟩, hraw⟩⟩
    rw [scanValue] at h
    split at h
    · rename_i hc
      obtain ⟨rfl, rfl⟩ := Prod.mk.inj (Except.ok.inj h)
      exact ⟨by rw [hc]; rfl, by simp⟩
    · rename_i hquote
      split at h
      · cases h
      · rename_i hc
        split at h
        · split at h
          · exact hmap hquote hc h
          · cases h
        · exact hmap hquote hc h

theorem scanReference_length {cs r : List Char} {x : Reference}
    (h : scanReference cs = .ok (x, r)) : r.length < cs.length := by
  unfold scanReference at h
  split at h
  · have hlen := (scanNumber_consumes (fun c => isLegal_of_isHexDigit) 16 h).length_le
    simp only [List.length_cons]
    omega
  · have hlen := (scanNumber_consumes (fun c => isLegal_of_isDigit) 10 h).length_le
    simp only [List.length_cons]
    omega
  · obtain ⟨⟨name, tail⟩, hb, h⟩ := bind_eq_ok_iff.mp h
    have hlen := (scanBase_consumes hb).length_le
    dsimp only at h
    split at h
    · obtain ⟨-, rfl⟩ := Prod.mk.inj (Except.ok.inj h)
      simp only [List.length_cons] at hlen
      omega
    · cases h

section Values

variable {expand : List Char → Except ValueFault (List Char)} {after fuel : Nat}

/-- A reference in a value stands for one character, unless there are entities. -/
theorem valueWith_reference (hexpand : ∀ name, ∃ f, expand name = .error f) {cs v : List Char}
    (h : valueWith expand after (fuel + 1) ('&' :: cs) = .ok v) :
    ∃ c more w, v = c :: w ∧ more.length < cs.length ∧
      valueWith expand after fuel more = .ok w := by
  rw [valueWith] at h
  split at h
  · cases h
  · cases h
  · rename_i n more hscan
    split at h
    · obtain ⟨w, hw, rfl⟩ := map_eq_ok_iff.mp h
      exact ⟨_, more, w, rfl, scanReference_length hscan, hw⟩
    · cases h
  · rename_i name more hscan
    split at h
    · obtain ⟨w, hw, rfl⟩ := map_eq_ok_iff.mp h
      exact ⟨_, more, w, rfl, scanReference_length hscan, hw⟩
    · obtain ⟨f, hf⟩ := hexpand name
      rw [hf] at h
      cases h

/-- Any other character of a value stands for itself, unless it is blank. -/
theorem valueWith_cons {c : Char} {cs v : List Char} (hamp : c ≠ '&')
    (h : valueWith expand after (fuel + 1) (c :: cs) = .ok v) :
    ∃ more w, v = (if isBlank c then ' ' else c) :: w ∧ more.length ≤ cs.length ∧
      (c ≠ '\r' → more = cs) ∧ valueWith expand after fuel more = .ok w := by
  rw [valueWith.eq_def] at h
  dsimp only at h
  generalize hall : c :: cs = all at h
  split at h
  · cases hall
  · cases h
  · exact absurd (List.cons.inj hall).1 hamp
  · obtain ⟨rfl, rfl⟩ := List.cons.inj hall
    obtain ⟨w, hw, rfl⟩ := map_eq_ok_iff.mp h
    exact ⟨_, w, rfl, by simp, fun hreturn => absurd rfl hreturn, hw⟩
  · obtain ⟨rfl, rfl⟩ := List.cons.inj hall
    obtain ⟨w, hw, rfl⟩ := map_eq_ok_iff.mp h
    exact ⟨cs, w, rfl, Nat.le_refl _, fun _ => rfl, hw⟩

theorem valueWith_length (hexpand : ∀ name, ∃ f, expand name = .error f) {cs v : List Char}
    (h : valueWith expand after fuel cs = .ok v) : v.length ≤ cs.length := by
  induction fuel generalizing cs v with
  | zero =>
    obtain rfl := Except.ok.inj h
    simp
  | succ fuel ih =>
    cases cs with
    | nil =>
      obtain rfl := Except.ok.inj h
      simp
    | cons c cs =>
      by_cases hamp : c = '&'
      · subst hamp
        obtain ⟨d, more, w, rfl, hmore, hw⟩ := valueWith_reference hexpand h
        have hlen := ih hw
        simp only [List.length_cons]
        omega
      · obtain ⟨more, w, rfl, hmore, -, hw⟩ := valueWith_cons hamp h
        have hlen := ih hw
        simp only [List.length_cons]
        omega

/-- A value that is read as it is has no references in it and no blanks but spaces. -/
theorem valueWith_self (hexpand : ∀ name, ∃ f, expand name = .error f) {cs : List Char}
    (hfuel : cs.length < fuel) (h : valueWith expand after fuel cs = .ok cs) :
    ∀ c ∈ cs, c ≠ '&' ∧ c ≠ '\t' ∧ c ≠ '\n' ∧ c ≠ '\r' := by
  induction cs generalizing fuel with
  | nil => simp
  | cons c cs ih =>
    obtain ⟨fuel, rfl⟩ := Nat.exists_eq_add_one.mpr (Nat.zero_lt_of_lt hfuel)
    by_cases hamp : c = '&'
    · subst hamp
      obtain ⟨d, more, w, hw, hmore, hrest⟩ := valueWith_reference hexpand h
      have hlen := valueWith_length hexpand hrest
      obtain ⟨-, rfl⟩ := List.cons.inj hw
      omega
    · obtain ⟨more, w, hcs, hlength, hmore, hrest⟩ := valueWith_cons hamp h
      obtain ⟨hc, rfl⟩ := List.cons.inj hcs
      have hblank : c ≠ '\t' ∧ c ≠ '\n' ∧ c ≠ '\r' := by
        refine ⟨?_, ?_, ?_⟩ <;> rintro rfl <;> revert hc <;> decide
      rw [List.forall_mem_cons]
      refine ⟨⟨hamp, hblank⟩, ?_⟩
      rw [hmore hblank.2.2] at hrest
      exact ih (by simpa using hfuel) hrest

end Values

theorem expandInValue_empty (name : List Char) :
    ∃ f, expandInValue {} 1 [] name = .error f := ⟨_, rfl⟩

/-- Characters that stand before a quote and are read as the value of an attribute need no escape. -/
theorem isVerbatim_of_value {n rest raw r : List Char} {after : Nat}
    (hscan : scanValue '"' (n ++ '"' :: rest) = .ok (raw, r))
    (hvalue : attributeValue {} false after raw = .ok n) : Attribute.IsVerbatim n := by
  obtain ⟨hsplit, hraw⟩ := scanValue_split hscan
  obtain ⟨v, hv, hn⟩ := map_eq_ok_iff.mp hvalue
  obtain rfl : v = n := hn
  have hlen := valueWith_length expandInValue_empty hv
  obtain rfl : v = raw := by
    rcases List.append_eq_append_iff.mp hsplit with ⟨more, rfl, hmore⟩ | ⟨more, rfl, -⟩
    · cases more with
      | nil => simp
      | cons c more =>
        obtain ⟨rfl, -⟩ := List.cons.inj hmore
        exact absurd rfl (hraw '"' (by simp)).1
    · rw [List.length_append] at hlen
      simp [List.length_eq_zero_iff.mp (by omega : more.length = 0)]
  have hself := valueWith_self expandInValue_empty (Nat.lt_succ_self _) hv
  intro c hc
  obtain ⟨hquote, hlt, hlegal⟩ := hraw c hc
  obtain ⟨hamp, htab, hlf, hcr⟩ := hself c hc
  exact ⟨hlegal, hquote, hlt, hamp, htab, hlf, hcr⟩

/-! The first attribute of a tag. -/

namespace Gathered

theorem add_plain {g k : Gathered} {n : Name} {value : List Char} (h : g.add n value = .ok k) :
    ∃ more, k.plain = g.plain ++ more := by
  unfold add at h
  dsimp only at h
  split at h
  · split at h
    · obtain rfl := Except.ok.inj h
      exact ⟨[], by simp⟩
    · cases h
  · split at h
    · obtain rfl := Except.ok.inj h
      exact ⟨[], by simp⟩
    · obtain rfl := Except.ok.inj h
      exact ⟨_, rfl⟩

theorem addWritten_plain {d : Declarations} {element : List Char} {start : Nat} {g k : Gathered}
    {ws : List WrittenAttribute} (h : addWritten d element start g ws = .ok k) :
    ∃ more, k.plain = g.plain ++ more := by
  induction ws generalizing g with
  | nil =>
    obtain rfl := Except.ok.inj h
    exact ⟨[], by simp⟩
  | cons w ws ih =>
    rw [addWritten] at h
    split at h
    · cases h
    · split at h
      · cases h
      · split at h
        · cases h
        · rename_i added hadd
          obtain ⟨more, hmore⟩ := add_plain hadd
          obtain ⟨rest, hrest⟩ := ih h
          exact ⟨more ++ rest, by rw [hrest, hmore, List.append_assoc]⟩

end Gathered

/-- The first attribute of a tag comes first, unless it has a qualifier or binds a namespace. -/
theorem OpenElement.ofTag_first {around : Bindings} {start : Nat} {tag : OpeningTag}
    {e : OpenElement} (h : ofTag {} around start tag = .ok e) {w : WrittenAttribute}
    {ws : List WrittenAttribute} (hws : tag.attributes = w :: ws)
    (hplain : w.name.qualifier = none) (hunbound : Namespace.bound? w.name = none) :
    ∃ value more, attributeValue {} false w.leftAfter w.value = .ok value ∧
      e.attributes = (w.name.base, value) :: more := by
  obtain ⟨g, hg, -, -, rfl⟩ := ofTag_eq_ok_iff.mp h
  rw [hws, Gathered.addWritten] at hg
  split at hg
  · cases hg
  · split at hg
    · cases hg
    · rename_i value hvalue
      have hadd : Gathered.add { bindings := around } w.name value =
          .ok { names := [w.name], bindings := around, plain := [(w.name.base, value)] } := by
        rw [Gathered.add]
        simp only [hunbound, hplain, List.nil_append]
      rw [hadd] at hg
      obtain ⟨more, hmore⟩ := Gathered.addWritten_plain hg
      exact ⟨value, more, hvalue, hmore⟩

theorem scanAttribute_first {a : Name} (ha : a.isWritten = true) {cs r : List Char}
    {w : WrittenAttribute} (h : scanAttribute (a.written ++ '=' :: '"' :: cs) = .ok (w, r)) :
    w.name = a ∧ scanValue '"' cs = .ok (w.value, r) := by
  obtain ⟨⟨_, _⟩, hfound, h⟩ := bind_eq_ok_iff.mp h
  obtain ⟨rfl, rfl⟩ := Prod.mk.inj (Except.ok.inj ((scanName_equals ha _).symm.trans hfound))
  obtain ⟨⟨value, after⟩, hvalue, h⟩ := bind_eq_ok_iff.mp h
  obtain ⟨rfl, rfl⟩ := Prod.mk.inj (Except.ok.inj h)
  exact ⟨rfl, hvalue⟩

theorem scanAttributes_first {a : Name} (ha : a.isWritten = true) {fuel : Nat} {cs r : List Char}
    {ws : List WrittenAttribute} {isEmpty : Bool}
    (h : scanAttributes fuel (' ' :: (a.written ++ '=' :: '"' :: cs)) = .ok ((ws, isEmpty), r)) :
    ∃ w more after, ws = w :: more ∧ w.name = a ∧ scanValue '"' cs = .ok (w.value, after) := by
  cases fuel with
  | zero => cases h
  | succ fuel =>
    obtain ⟨c, more, hwritten, hc⟩ := Name.written_cons ha
    have hspace : isBlank ' ' = true := by decide
    rw [hwritten, List.cons_append] at h
    simp only [scanAttributes, hspace, if_true, skipBlanks_nameStart hc, hc] at h
    obtain ⟨⟨w, after⟩, hw, h⟩ := bind_eq_ok_iff.mp h
    obtain ⟨⟨⟨more, _⟩, last⟩, -, h⟩ := bind_eq_ok_iff.mp h
    obtain ⟨hws, -⟩ := Prod.mk.inj (Except.ok.inj h)
    obtain ⟨rfl, -⟩ := Prod.mk.inj hws
    rw [← List.cons_append, ← hwritten] at hw
    obtain ⟨hname, hvalue⟩ := scanAttribute_first ha hw
    exact ⟨w, more, after, rfl, hname, hvalue⟩

namespace Content

/-- A tag with an attribute, of which what follows the first quote is not known. -/
theorem token_attribute {n : List Char} (hn : isBase n = true) {a : Name} (ha : a.isWritten = true)
    {cs r : List Char} {t : Token}
    (h : token ('<' :: (n ++ ' ' :: (a.written ++ '=' :: '"' :: cs))) = .ok (t, r)) :
    ∃ tag w ws after, t = .opening tag ∧ tag.name = ⟨none, n⟩ ∧ tag.attributes = w :: ws ∧
      w.name = a ∧ scanValue '"' cs = .ok (w.value, after) := by
  obtain ⟨c, more, rfl, hc⟩ := isBase_cons hn
  have hname : scanName (c :: more ++ ' ' :: (a.written ++ '=' :: '"' :: cs)) =
      .ok (⟨none, c :: more⟩, ' ' :: (a.written ++ '=' :: '"' :: cs)) := by
    refine scanName_written (n := ⟨none, c :: more⟩) (by simpa [Name.isWritten] using hn) ?_
    simp only [List.head?_cons, Option.mem_some_iff, forall_eq']
    decide
  rw [List.cons_append, token_opening _ _ (opening_of_isNameStart hc)] at h
  obtain ⟨⟨tag, after⟩, hscan, he⟩ := map_eq_ok_iff.mp h
  obtain ⟨rfl, rfl⟩ := Prod.mk.inj he
  obtain ⟨⟨_, _⟩, hfound, hscan⟩ := bind_eq_ok_iff.mp (mapError_eq_ok_iff.mp hscan)
  obtain ⟨rfl, rfl⟩ := Prod.mk.inj (Except.ok.inj (hname.symm.trans hfound))
  obtain ⟨⟨⟨ws, isEmpty⟩, last⟩, hws, hscan⟩ := bind_eq_ok_iff.mp hscan
  obtain ⟨rfl, rfl⟩ := Prod.mk.inj (Except.ok.inj hscan)
  obtain ⟨w, more, after, rfl, hw⟩ := scanAttributes_first ha hws
  exact ⟨_, w, more, after, rfl, rfl, rfl, hw⟩

/-- Where a tag with an attribute follows, its element is the next that the outermost one holds. -/
theorem runs_attribute {inner : OpenElement} {n : List Char} (hn : isBase n = true)
    {a : Name} (ha : a.isWritten = true) (hplain : a.qualifier = none)
    (hunbound : Namespace.bound? a = none) {cs r : List Char} {root : Element}
    (h : Runs inner [] ('<' :: (n ++ ' ' :: (a.written ++ '=' :: '"' :: cs)))
      (.ok (root, r))) :
    ∃ child last value more, (inner.push (Element.toNode ⟨n, (a.base, value) :: more, child⟩)).Extends
        last ∧ root = last.close ∧
      ∃ raw left after, scanValue '"' cs = .ok (raw, after) ∧
        attributeValue {} false left raw = .ok value := by
  have hrun := h _ (Nat.lt_succ_self _)
  obtain ⟨left, -, htoken, -⟩ | ⟨inner₂, outer₂, rest, hstep, hgoes⟩ := advances_of_runWith hrun
  · obtain ⟨_, _, _, _, htag, -⟩ := token_attribute hn ha htoken
    cases htag
  obtain ⟨tag, opened, htoken, htag, child, last, hchild, hlast, he⟩ : ∃ tag opened,
      token ('<' :: (n ++ ' ' :: (a.written ++ '=' :: '"' :: cs))) = .ok (.opening tag, rest) ∧
      OpenElement.ofTag {} inner.bindings
        ('<' :: (n ++ ' ' :: (a.written ++ '=' :: '"' :: cs))).length tag = .ok opened ∧
      ∃ child last, opened.Extends child ∧ (inner.push child.close.toNode).Extends last ∧
        root = last.close := by
    cases hstep with
    | opening htoken htag _ =>
      rw [← List.nil_append [inner]] at hgoes
      exact ⟨_, _, htoken, htag, runWith_child hgoes⟩
    | empty htoken htag _ =>
      obtain ⟨last, hlast, he⟩ := runWith_bottom hgoes
      exact ⟨_, _, htoken, htag, _, last, .refl _, hlast, he⟩
    | nothing htoken | chars htoken =>
      obtain ⟨_, _, _, _, htag, -⟩ := token_attribute hn ha htoken
      cases htag
    | closing houter => cases houter
  obtain ⟨_, w, ws, after, hsame, hname, hws, rfl, hscan⟩ := token_attribute hn ha htoken
  obtain rfl := Token.opening.inj hsame
  obtain ⟨value, more, hvalue, hattributes⟩ :=
    OpenElement.ofTag_first htag hws hplain hunbound
  have hopened : opened.name = n := by
    obtain ⟨g, -, -, -, rfl⟩ := OpenElement.ofTag_eq_ok_iff.mp htag
    rw [hname]
  refine ⟨child.content.reverse, last, value, more, ?_, he, w.value, w.leftAfter, after,
    hscan, hvalue⟩
  rw [OpenElement.close, hchild.name, hchild.attributes, hopened, hattributes] at hlast
  exact hlast

/-- Behind the elements of a text that is read stands the element of the next tag, with what the
characters after the first quote are read as for its first attribute. -/
theorem element_attribute {tag : List Char} {e : OpenElement} (hopens : Opens tag e)
    {raws : List (List Char)} {P : List Element → Prop}
    (hraws : ∀ {bs}, e.bindings.Alike bs →
      ∃ xs, List.Forall₂ (Spaced bs) raws xs ∧ P xs)
    {gap blanks : List Char} (hgap : CharData gap blanks) {n : List Char}
    (hn : isBase n = true) {a : Name} (ha : a.isWritten = true) (hplain : a.qualifier = none)
    (hunbound : Namespace.bound? a = none) {cs r : List Char} {root : Element}
    (h : element {} (tag ++ (raws.flatten ++ gap ++
      '<' :: (n ++ ' ' :: (a.written ++ '=' :: '"' :: cs)))) = .ok (root, r)) :
    ∃ xs x more value, P xs ∧ elementsOf root.content = xs ++ x :: more ∧ x.name = n ∧
      x.attributes.head? = some (a.base, value) ∧
      ∃ raw left after, scanValue '"' cs = .ok (raw, after) ∧
        attributeValue {} false left raw = .ok value := by
  obtain ⟨e', halike, hruns⟩ := element_opened hopens (raws.flatten ++ gap ++
    '<' :: (n ++ ' ' :: (a.written ++ '=' :: '"' :: cs)))
  obtain ⟨xs, hxs, hP⟩ := hraws halike.bindings
  obtain ⟨nodes, hholds, helements⟩ := holds_spaced hxs hgap
  have hempty : e'.content = [] := halike.content.trans hopens.content
  have hrest := runs_self { e' with content := nodes.reverse ++ e'.content } []
    ('<' :: (n ++ ' ' :: (a.written ++ '=' :: '"' :: cs)))
  rw [← hruns (hholds rfl hrest), h] at hrest
  obtain ⟨content, last, value, more, hlast, rfl, hscan⟩ :=
    runs_attribute hn ha hplain hunbound hrest
  obtain ⟨new, hnew⟩ := hlast.content
  refine ⟨xs, ⟨n, (a.base, value) :: more, content⟩, elementsOf new.reverse, value, hP, ?_,
    rfl, rfl, hscan⟩
  have hcontent : last.close.content =
      nodes ++ (Element.toNode ⟨n, (a.base, value) :: more, content⟩ :: new.reverse) := by
    simp [OpenElement.close, hnew, OpenElement.push, hempty]
  rw [hcontent, elementsOf, List.filterMap_append, ← elementsOf, helements]
  rfl

end Content

end Localization.Xml
