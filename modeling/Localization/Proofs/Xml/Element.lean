import Localization.Proofs.Xml.Taken

/-! Elements inside a document without declarations. An element is described by what comes of the
document after it: reading goes on behind the element, which has become a part of the one around
it. -/

namespace Localization.Xml.Content

theorem expandIn_empty (bs : Bindings) (name : List Char) :
    expandIn {} 1 [] bs name = .error .undefinedEntity := rfl

/-- What comes of content if there is fuel for every character. -/
def Runs (inner : OpenElement) (outer : List OpenElement) (cs : List Char)
    (result : Except Fault (Scanned Element)) : Prop :=
  ∀ fuel, cs.length < fuel → runWith {} (expandIn {} 1 []) .element fuel inner outer cs = result

section Steps

variable {inner : OpenElement} {outer : List OpenElement} {cs r : List Char}
  {result : Except Fault (Scanned Element)}

/-- Where a token is read there are characters, and not a lone CR alone unless it ends the text. -/
theorem token_step {t : Token} {fuel : Nat} (h : token cs = .ok (t, r))
    (hr : ∀ plain, t = .chars plain → r ≠ []) (hfuel : cs.length < fuel) :
    ∃ k c more, fuel = k + 1 ∧ cs = c :: more ∧ decide (c :: more = ['\r']) = false ∧
      r.length < k := by
  have hlen := token_length h
  obtain ⟨k, rfl⟩ := Nat.exists_eq_add_one.mpr (Nat.zero_lt_of_lt hfuel)
  obtain ⟨c, more, rfl⟩ := List.exists_cons_of_length_pos (by omega : 0 < cs.length)
  refine ⟨k, c, more, rfl, rfl, decide_eq_false fun he => ?_, by omega⟩
  rw [he] at h
  cases h
  exact hr _ rfl rfl

/-- A token is read, and reading goes on behind it with other elements open. -/
inductive Advances (inner : OpenElement) (outer : List OpenElement) (cs r : List Char) :
    OpenElement → List OpenElement → Prop
  | nothing (h : token cs = .ok (.nothing, r)) : Advances inner outer cs r inner outer
  | chars {plain : List Char} (h : token cs = .ok (.chars plain, r)) (hr : r ≠ []) :
    Advances inner outer cs r (inner.push (.text plain)) outer
  | opening {tag : OpeningTag} {e : OpenElement} (h : token cs = .ok (.opening tag, r))
    (htag : OpenElement.ofTag {} inner.bindings cs.length tag = .ok e)
    (hopen : tag.isEmpty = false) : Advances inner outer cs r e (inner :: outer)
  | empty {tag : OpeningTag} {e : OpenElement} (h : token cs = .ok (.opening tag, r))
    (htag : OpenElement.ofTag {} inner.bindings cs.length tag = .ok e)
    (hempty : tag.isEmpty = true) : Advances inner outer cs r (inner.push e.close.toNode) outer
  | closing {o : OpenElement} {os : List OpenElement} {left : Nat} (houter : outer = o :: os)
    (h : token cs = .ok (.closing inner.written left, r)) :
    Advances inner outer cs r (o.push inner.close.toNode) os

theorem Advances.exists_token {inner' : OpenElement} {outer' : List OpenElement}
    (h : Advances inner outer cs r inner' outer') :
    ∃ t, token cs = .ok (t, r) ∧ ∀ plain, t = .chars plain → r ≠ [] := by
  cases h with
  | nothing h | opening h | empty h | closing _ h => exact ⟨_, h, by simp⟩
  | chars h hr => exact ⟨_, h, fun _ _ => hr⟩

theorem Runs.step {inner' : OpenElement} {outer' : List OpenElement}
    (hstep : Advances inner outer cs r inner' outer') (hruns : Runs inner' outer' r result) :
    Runs inner outer cs result := by
  intro fuel hfuel
  obtain ⟨t, htoken, hr⟩ := hstep.exists_token
  obtain ⟨k, c, more, rfl, rfl, hreturn, hk⟩ := token_step htoken hr hfuel
  have hgoes := hruns k hk
  rw [runWith]
  · simp only [hreturn, Bool.false_and, Bool.false_eq_true, if_false]
    cases hstep with
    | nothing h | chars h =>
      simp only [h]
      exact hgoes
    | opening h htag hopen =>
      simp only [h, htag, hopen, Bool.false_eq_true, if_false]
      exact hgoes
    | empty h htag hempty =>
      simp only [h, htag, hempty, if_true]
      exact hgoes
    | closing houter h =>
      simp only [h, houter, if_true]
      exact hgoes
  · simp

/-- The tag that closes the last open element ends the reading. -/
theorem Runs.last {left : Nat} (h : token cs = .ok (.closing inner.written left, r)) :
    Runs inner [] cs (.ok (inner.close, r)) := by
  intro fuel hfuel
  obtain ⟨k, c, more, rfl, rfl, hreturn, hk⟩ := token_step h (by simp) hfuel
  rw [runWith]
  · simp only [hreturn, h, Bool.false_and, Bool.false_eq_true, if_false, if_true, reduceCtorEq]
  · simp

end Steps

/-- Characters are read as an element inside others, whatever comes after them. -/
def Reads (bs : Bindings) (cs : List Char) (e : Element) : Prop :=
  ∀ {inner : OpenElement} {outer : List OpenElement} {rest : List Char}
    {result : Except Fault (Scanned Element)}, inner.bindings = bs →
    Runs (inner.push e.toNode) outer rest result → Runs inner outer (cs ++ rest) result

/-- Reading that succeeds does not stop where characters could be continued. -/
theorem runWith_chars_rest {fuel : Nat} {inner : OpenElement} {outer : List OpenElement}
    {cs : List Char} {e : Element} {r : List Char}
    (h : runWith {} (expandIn {} 1 []) .element fuel inner outer cs = .ok (e, r)) :
    cs ≠ [] ∧ cs ≠ [']'] := by
  constructor
  · rintro rfl
    cases fuel <;> cases h
  · rintro rfl
    cases fuel with
    | zero => cases h
    | succ fuel => cases fuel <;> cases h

section Appended

variable {inner inner₂ inner' : OpenElement} {outer outer₂ outer' : List OpenElement}
  {cs r : List Char} {e : Element}

/-- Reading that succeeds reads a token and goes on, or ends with the element. -/
theorem advances_of_runWith {fuel : Nat}
    (h : runWith {} (expandIn {} 1 []) .element (fuel + 1) inner outer cs = .ok (e, r)) :
    (∃ left, outer = [] ∧ token cs = .ok (.closing inner.written left, r) ∧ e = inner.close) ∨
      ∃ inner₂ outer₂ rest, Advances inner outer cs rest inner₂ outer₂ ∧
        runWith {} (expandIn {} 1 []) .element fuel inner₂ outer₂ rest = .ok (e, r) := by
  obtain ⟨c, more, rfl⟩ := List.exists_cons_of_ne_nil (runWith_chars_rest h).1
  rw [runWith.eq_def] at h
  dsimp only at h
  split at h
  · cases h
  obtain ⟨found, htoken⟩ : ∃ found, token (c :: more) = found := ⟨_, rfl⟩
  rw [htoken] at h
  cases found with
  | error f => cases h
  | ok found =>
    obtain ⟨t, rest⟩ := found
    cases t with
    | nothing => exact .inr ⟨_, _, _, .nothing htoken, h⟩
    | chars plain => exact .inr ⟨_, _, _, .chars htoken (runWith_chars_rest h).1, h⟩
    | entity name =>
      simp only [expandIn_empty] at h
      cases h
    | opening tag =>
      dsimp only at h
      split at h
      · cases h
      · rename_i opened htag
        split at h
        · rename_i hempty
          exact .inr ⟨_, _, _, .empty htoken htag hempty, h⟩
        · rename_i hopen
          exact .inr ⟨_, _, _, .opening htoken htag (eq_false_of_ne_true hopen), h⟩
    | closing name left =>
      cases outer with
      | nil =>
        simp only [reduceCtorEq, if_false] at h
        split at h
        · rename_i hname
          obtain ⟨rfl, rfl⟩ := by simpa using h
          exact .inl ⟨left, rfl, hname ▸ htoken, rfl⟩
        · cases h
      | cons o outer =>
        dsimp only at h
        split at h
        · rename_i hname
          exact .inr ⟨_, _, _, .closing rfl (hname ▸ htoken), h⟩
        · cases h

/-- A step is the same one among elements that are alike, with others around them and whatever
follows the text. -/
theorem Advances.append (h : Advances inner outer cs r inner₂ outer₂) (hr : r ≠ [] ∧ r ≠ [']'])
    (hinner : OpenElement.Alike inner inner') (houter : List.Forall₂ OpenElement.Alike outer outer')
    (os : List OpenElement) (rest : List Char) :
    ∃ inner₂' outer₂',
      Advances inner' (outer' ++ os) (cs ++ rest) (r ++ rest) inner₂' (outer₂' ++ os) ∧
      OpenElement.Alike inner₂ inner₂' ∧ List.Forall₂ OpenElement.Alike outer₂ outer₂' := by
  obtain ⟨t, htoken, -⟩ := h.exists_token
  obtain ⟨t', htoken', hsame⟩ := token_append htoken (fun _ _ => hr) rest
  cases h with
  | nothing h =>
    cases h.symm.trans htoken
    cases hsame
    exact ⟨_, _, .nothing htoken', hinner, houter⟩
  | chars h _ =>
    cases h.symm.trans htoken
    cases hsame
    exact ⟨_, _, .chars htoken' (by simp [hr.1]), hinner.push _, houter⟩
  | opening h htag hopen =>
    cases h.symm.trans htoken
    obtain ⟨hshape⟩ := hsame
    obtain ⟨opened', htag', hopened⟩ :=
      OpenElement.ofTag_alike htag hshape hinner.bindings (cs ++ rest).length
    have hempty := OpeningTag.isEmpty_of_shape hshape
    exact ⟨_, inner' :: outer', .opening htoken' htag' (hempty.trans hopen), hopened,
      .cons hinner houter⟩
  | empty h htag he =>
    cases h.symm.trans htoken
    obtain ⟨hshape⟩ := hsame
    obtain ⟨opened', htag', hopened⟩ :=
      OpenElement.ofTag_alike htag hshape hinner.bindings (cs ++ rest).length
    have hempty := OpeningTag.isEmpty_of_shape hshape
    refine ⟨_, _, .empty htoken' htag' (hempty.trans he), ?_, houter⟩
    rw [hopened.close]
    exact hinner.push _
  | closing ho h =>
    cases h.symm.trans htoken
    cases hsame
    subst ho
    cases houter with
    | cons haround houter =>
      rw [← hinner.written] at htoken'
      refine ⟨_, _, .closing rfl htoken', ?_, houter⟩
      rw [hinner.close]
      exact haround.push _

/-- Reading that comes to the end of an element goes on behind it if the element stands inside
others. -/
theorem runs_append {fuel : Nat}
    (h : runWith {} (expandIn {} 1 []) .element fuel inner outer cs = .ok (e, r))
    (hinner : OpenElement.Alike inner inner') (houter : List.Forall₂ OpenElement.Alike outer outer')
    {o : OpenElement} {os : List OpenElement} {rest : List Char}
    {result : Except Fault (Scanned Element)}
    (hruns : Runs (o.push e.toNode) os (r ++ rest) result) :
    Runs inner' (outer' ++ o :: os) (cs ++ rest) result := by
  induction fuel generalizing inner inner' outer outer' cs with
  | zero => cases h
  | succ fuel ih =>
    obtain ⟨left, rfl, htoken, rfl⟩ | ⟨inner₂, outer₂, r₂, hstep, hgoes⟩ := advances_of_runWith h
    · obtain ⟨t', htoken', hsame⟩ := token_append htoken (by simp) rest
      cases hsame
      cases houter
      rw [← hinner.written] at htoken'
      refine .step (.closing rfl htoken') ?_
      rw [hinner.close]
      exact hruns
    · obtain ⟨inner₂', outer₂', hstep', hinner₂, houter₂⟩ :=
        hstep.append (runWith_chars_rest hgoes) hinner houter (o :: os) rest
      exact .step hstep' (ih hgoes hinner₂ houter₂)

end Appended

/-- An element that a text consists of is read as the same element inside a document, if the
document has the standard namespaces for qualifiers. -/
theorem reads_of_element {bs : Bindings} (hbs : Bindings.Alike Namespace.standard bs)
    {cs : List Char} {e : Element} (h : element {} cs = .ok (e, [])) : Reads bs cs e := by
  intro inner outer rest result hinner hruns
  unfold element at h
  split at h
  · cases h
  · rename_i tag after htoken
    obtain ⟨t', htoken', hsame⟩ := token_append htoken (by simp) rest
    obtain ⟨hshape⟩ := hsame
    have hempty := OpeningTag.isEmpty_of_shape hshape
    split at h
    · cases h
    · rename_i opened htag
      obtain ⟨opened', htag', hopened⟩ :=
        OpenElement.ofTag_alike htag hshape (hinner ▸ hbs) (cs ++ rest).length
      split at h
      · rename_i he
        obtain ⟨rfl, rfl⟩ := by simpa using h
        refine .step (.empty htoken' htag' (hempty.trans he)) ?_
        rw [hopened.close]
        exact hruns
      · rename_i he
        refine .step (.opening htoken' htag' (hempty.trans (eq_false_of_ne_true he))) ?_
        exact runs_append h hopened .nil hruns
  · cases h

end Localization.Xml.Content
