import Localization.Proofs.Xml.Document

/-! What reading that succeeds says about the text: all of it is legal, elements stay what they were
opened as, and what they hold stays in them. -/

namespace Localization.Xml

namespace Content

variable {d : Declarations} {expand : Bindings → List Char → Except Problem (List Node)}
  {extent : Extent}

/-- The fuel plays no part if there is more of it than there are characters. -/
theorem runWith_fuel {fuel more : Nat} {cs : List Char} (hfuel : cs.length < fuel)
    (hmore : cs.length < more) (inner : OpenElement) (outer : List OpenElement) :
    runWith d expand extent fuel inner outer cs = runWith d expand extent more inner outer cs := by
  induction fuel generalizing more cs inner outer with
  | zero => omega
  | succ fuel ih =>
    obtain ⟨more, rfl⟩ := Nat.exists_eq_add_one.mpr (Nat.zero_lt_of_lt hmore)
    cases cs with
    | nil => rfl
    | cons c cs =>
      have hstep : ∀ {t : Token} {r : List Char}, token (c :: cs) = .ok (t, r) →
          ∀ inner outer, runWith d expand extent fuel inner outer r =
            runWith d expand extent more inner outer r := by
        intro t r htoken inner outer
        have hlen := token_length htoken
        exact ih (by omega) (by omega) inner outer
      rw [runWith.eq_def d expand extent (fuel + 1), runWith.eq_def d expand extent (more + 1)]
      dsimp only
      split
      · rfl
      · cases htoken : token (c :: cs) with
        | error f => rfl
        | ok found =>
          obtain ⟨t, r⟩ := found
          have hrest := hstep htoken
          cases t with
          | nothing => exact hrest _ _
          | chars plain => exact hrest _ _
          | entity name => simp only [hrest]
          | opening tag => simp only [hrest]
          | closing name left => simp only [hrest]

/-- What comes of content with fuel for every character. -/
theorem runs_self (inner : OpenElement) (outer : List OpenElement) (cs : List Char) :
    Runs inner outer cs
      (runWith {} (expandIn {} 1 []) .element (cs.length + 1) inner outer cs) :=
  fun _ hfuel => runWith_fuel hfuel (Nat.lt_succ_self _) inner outer

/-! The elements at the bottom of the stack. -/

end Content

namespace OpenElement

/-- The same element, with more in it. -/
structure Extends (e e' : OpenElement) : Prop where
  name : e'.name = e.name
  attributes : e'.attributes = e.attributes
  content : ∃ new, e'.content = new ++ e.content

theorem Extends.refl (e : OpenElement) : Extends e e := ⟨rfl, rfl, [], rfl⟩

theorem Extends.trans {e e' e'' : OpenElement} (h : Extends e e') (h' : Extends e' e'') :
    Extends e e'' := by
  obtain ⟨new, hnew⟩ := h.content
  obtain ⟨new', hnew'⟩ := h'.content
  exact ⟨h'.name.trans h.name, h'.attributes.trans h.attributes, new' ++ new, by simp [hnew', hnew]⟩

theorem extends_push (e : OpenElement) (n : Node) : Extends e (e.push n) := ⟨rfl, rfl, [n], rfl⟩

theorem extends_content (e : OpenElement) (nodes : List Node) :
    Extends e { e with content := nodes ++ e.content } := ⟨rfl, rfl, nodes, rfl⟩

/-- The outermost element of a stack. -/
def bottom (inner : OpenElement) : List OpenElement → OpenElement
  | [] => inner
  | o :: outer => bottom o outer

theorem Extends.bottom {inner inner' : OpenElement} (h : Extends inner inner')
    (outer : List OpenElement) : Extends (inner.bottom outer) (inner'.bottom outer) := by
  cases outer with
  | nil => exact h
  | cons o outer => exact .refl _

end OpenElement

namespace Content

open OpenElement

variable {d : Declarations} {expand : Bindings → List Char → Except Problem (List Node)}
  {extent : Extent} {fuel : Nat} {inner : OpenElement} {outer : List OpenElement}
  {cs r : List Char} {e : Element}

/-- How one token changes a stack, if reading goes on. -/
inductive Step (inner : OpenElement) (outer : List OpenElement) :
    OpenElement → List OpenElement → Prop
  | more (nodes : List Node) : Step inner outer { inner with content := nodes ++ inner.content } outer
  | opened (opened : OpenElement) : Step inner outer opened (inner :: outer)
  | closed {o : OpenElement} {os : List OpenElement} (houter : outer = o :: os) :
    Step inner outer (o.push inner.close.toNode) os

/-- Reading that succeeds takes a step and goes on, or ends with the element. -/
theorem runWith_step
    (h : runWith d expand extent (fuel + 1) inner outer cs = .ok (e, r)) :
    (outer = [] ∧ e = inner.close ∧ Takes cs r) ∨
      ∃ inner' outer' rest, Step inner outer inner' outer' ∧ Takes cs rest ∧
        runWith d expand extent fuel inner' outer' rest = .ok (e, r) := by
  cases cs with
  | nil =>
    cases extent with
    | element => cases h
    | entity =>
      rw [runWith] at h
      split at h
      · rename_i hempty
        obtain ⟨rfl, rfl⟩ := by simpa using h
        exact .inl ⟨by simpa using hempty, rfl, .done _⟩
      · cases h
  | cons c more =>
    rw [runWith.eq_def] at h
    dsimp only at h
    split at h
    · cases h
    · cases htoken : token (c :: more) with
      | error f => simp [htoken] at h
      | ok found =>
        obtain ⟨t, rest⟩ := found
        obtain ⟨_, _, hcs, hc, hmore⟩ := token_takes htoken
        have htakes : Takes (c :: more) rest := hcs ▸ .char hc hmore
        simp only [htoken] at h
        cases t with
        | nothing => exact .inr ⟨_, _, _, .more [], htakes, h⟩
        | chars plain => exact .inr ⟨_, _, _, .more [.text plain], htakes, h⟩
        | entity name =>
          dsimp only at h
          split at h
          · rename_i nodes _
            exact .inr ⟨_, _, _, .more nodes.reverse, htakes, h⟩
          · cases h
        | opening tag =>
          dsimp only at h
          split at h
          · cases h
          · rename_i opened _
            split at h
            · exact .inr ⟨_, _, _, .more [opened.close.toNode], htakes, h⟩
            · exact .inr ⟨_, _, _, .opened opened, htakes, h⟩
        | closing name left =>
          dsimp only at h
          split at h
          · split at h
            · cases h
            · split at h
              · obtain ⟨rfl, rfl⟩ := by simpa using h
                exact .inl ⟨rfl, rfl, htakes⟩
              · cases h
          · split at h
            · exact .inr ⟨_, _, _, .closed rfl, htakes, h⟩
            · cases h

theorem runWith_takes (h : runWith d expand extent fuel inner outer cs = .ok (e, r)) :
    Takes cs r := by
  induction fuel generalizing inner outer cs with
  | zero => cases h
  | succ fuel ih =>
    rcases runWith_step h with ⟨-, -, htakes⟩ | ⟨inner', outer', rest, -, htakes, hrest⟩
    · exact htakes
    · exact htakes.trans (ih hrest)

theorem Step.bottom {inner' : OpenElement} {outer' : List OpenElement}
    (h : Step inner outer inner' outer') : (inner.bottom outer).Extends (inner'.bottom outer') := by
  cases h with
  | more nodes => exact (extends_content inner nodes).bottom outer
  | opened opened => exact .refl _
  | @closed o _ houter =>
    subst houter
    show (o.bottom outer').Extends _
    exact (extends_push o _).bottom outer'

/-- The outermost element comes out with what it held, and more. -/
theorem runWith_bottom (h : runWith d expand extent fuel inner outer cs = .ok (e, r)) :
    ∃ last, (inner.bottom outer).Extends last ∧ e = last.close := by
  induction fuel generalizing inner outer cs with
  | zero => cases h
  | succ fuel ih =>
    rcases runWith_step h with ⟨rfl, rfl, -⟩ | ⟨inner', outer', rest, hstep, -, hrest⟩
    · exact ⟨inner, .refl _, rfl⟩
    · obtain ⟨last, hlast, he⟩ := ih hrest
      exact ⟨last, hstep.bottom.trans hlast, he⟩

/-- The element that is open in the outermost one is the next that the outermost one holds. -/
theorem runWith_child {above : List OpenElement} {b : OpenElement}
    (h : runWith d expand extent fuel inner (above ++ [b]) cs = .ok (e, r)) :
    ∃ child last, (inner.bottom above).Extends child ∧ (b.push child.close.toNode).Extends last ∧
      e = last.close := by
  induction fuel generalizing inner above cs with
  | zero => cases h
  | succ fuel ih =>
    rcases runWith_step h with ⟨hnone, -⟩ | ⟨inner', outer', rest, hstep, -, hrest⟩
    · simp at hnone
    · cases hstep with
      | more nodes =>
        obtain ⟨child, last, hchild, hlast, he⟩ := ih hrest
        exact ⟨child, last, ((extends_content inner nodes).bottom above).trans hchild, hlast, he⟩
      | opened opened =>
        rw [← List.cons_append] at hrest
        obtain ⟨child, last, hchild, hlast, he⟩ := ih hrest
        exact ⟨child, last, hchild, hlast, he⟩
      | @closed o os houter =>
        cases above with
        | nil =>
          obtain ⟨rfl, rfl⟩ := by simpa using houter
          obtain ⟨last, hlast, he⟩ := runWith_bottom hrest
          exact ⟨inner, last, .refl _, hlast, he⟩
        | cons a above =>
          obtain ⟨rfl, rfl⟩ := by simpa using houter
          obtain ⟨child, last, hchild, hlast, he⟩ := ih hrest
          exact ⟨child, last, ((extends_push a _).bottom above).trans hchild, hlast, he⟩

theorem element_takes (h : element d cs = .ok (e, r)) : Takes cs r := by
  unfold element at h
  split at h
  · cases h
  · rename_i tag rest htoken
    obtain ⟨c, more, hcs, hc, hmore⟩ := token_takes htoken
    have htakes : Takes cs rest := hcs ▸ .char hc hmore
    split at h
    · cases h
    · split at h
      · obtain ⟨-, rfl⟩ := Prod.mk.inj (Except.ok.inj h)
        exact htakes
      · exact htakes.trans (runWith_takes h)
  · cases h

end Content

/-! What follows the element of a document. -/

namespace Lexeme

/-- What may stand between declarations, and after the element of a document. -/
def isGap : Lexeme → Bool
  | .blanks | .comment | .instruction => true
  | _ => false

variable {cs r : List Char} {l : Lexeme}

theorem isGap_scanDeclaration (h : scanDeclaration cs = .ok (l, r)) : l.isGap = false := by
  unfold scanDeclaration at h
  dsimp only at h
  repeat' split at h
  all_goals cases h <;> rfl

theorem isGap_scanPercent (h : scanPercent cs = .ok (l, r)) : l.isGap = false := by
  unfold scanPercent at h
  repeat' split at h
  · cases h
  · cases h
    rfl
  · obtain ⟨⟨base, rest⟩, -, h⟩ := bind_eq_ok_iff.mp h
    dsimp only at h
    split at h
    · cases h
      rfl
    · cases h

theorem isGap_scanKeyword (h : scanKeyword cs = .ok (l, r)) : l.isGap = false := by
  obtain ⟨⟨base, rest⟩, -, h⟩ := bind_eq_ok_iff.mp h
  dsimp only at h
  repeat' split at h
  all_goals cases h <;> rfl

theorem isGap_scanCloseParen (h : scanCloseParen cs = .ok (l, r)) : l.isGap = false := by
  unfold scanCloseParen at h
  repeat' split at h
  all_goals cases h <;> rfl

theorem isGap_nameLexeme (written : List Char) : (nameLexeme written).isGap = false := by
  unfold nameLexeme
  dsimp only
  repeat' split
  all_goals rfl

theorem isGap_scanNameLexeme (h : scanNameLexeme cs = .ok (l, r)) : l.isGap = false := by
  unfold scanNameLexeme at h
  dsimp only at h
  repeat' split at h
  all_goals cases h <;> first | rfl | exact isGap_nameLexeme _

/-- A gap is legal, and takes a character at least. -/
theorem scan_takes (h : scan cs = .ok (l, r)) (hl : l.isGap = true) :
    ∃ c more, cs = c :: more ∧ isLegal c = true ∧ Takes more r := by
  have hno : l.isGap ≠ false := by simp [hl]
  unfold scan at h
  split at h
  case h_2 =>
    obtain ⟨⟨u, after⟩, hscan, he⟩ := map_eq_ok_iff.mp h
    obtain ⟨-, rfl⟩ := Prod.mk.inj he
    exact ⟨_, _, rfl, by decide, (Takes.append "!--".toList (by decide)).trans
      (scanComment_consumes hscan)⟩
  case h_5 => exact absurd (isGap_scanDeclaration h) hno
  case h_6 =>
    obtain ⟨⟨u, after⟩, hscan, he⟩ := map_eq_ok_iff.mp h
    obtain ⟨-, rfl⟩ := Prod.mk.inj he
    exact ⟨_, _, rfl, by decide, .char (by decide) (scanInstruction_consumes hscan)⟩
  case h_7 =>
    split at h
    · cases h
      cases hl
    · cases h
  case h_9 | h_10 =>
    obtain ⟨found, -, he⟩ := map_eq_ok_iff.mp h
    obtain ⟨rfl, -⟩ := Prod.mk.inj he
    cases hl
  case h_11 => exact absurd (isGap_scanPercent h) hno
  case h_12 => exact absurd (isGap_scanKeyword h) hno
  case h_20 => exact absurd (isGap_scanCloseParen h) hno
  case h_22 =>
    split at h
    · rename_i hblank
      obtain ⟨-, rfl⟩ := Prod.mk.inj (Except.ok.inj h)
      exact ⟨_, _, rfl, isLegal_of_isBlank hblank, .skipBlanks _⟩
    · split at h
      · exact absurd (isGap_scanNameLexeme h) hno
      · cases h
  all_goals
    cases h
    try cases hl

end Lexeme

/-- If nothing but blanks, comments and instructions follow, then what follows is legal. -/
theorem legal_of_checkTail {fuel : Nat} {cs : List Char} (hfuel : cs.length < fuel)
    (h : checkTail (lexemes fuel cs).1 (lexemes fuel cs).2 = .ok ()) :
    ∀ c ∈ cs, isLegal c = true := by
  induction fuel generalizing cs with
  | zero => omega
  | succ fuel ih =>
    rw [lexemes] at h
    split at h
    · rename_i hempty
      simp [List.isEmpty_iff.mp hempty]
    · cases hscan : Lexeme.scan cs with
      | error e => simp [hscan, checkTail] at h
      | ok found =>
        obtain ⟨l, rest⟩ := found
        rw [hscan] at h
        have hnext : l.isGap = true ∧
            checkTail (lexemes fuel rest).1 (lexemes fuel rest).2 = .ok () := by
          cases l with
          | blanks => exact ⟨rfl, h⟩
          | comment => exact ⟨rfl, h⟩
          | instruction => exact ⟨rfl, h⟩
          | _ => cases h
        obtain ⟨c, more, rfl, hc, hmore⟩ := Lexeme.scan_takes hscan hnext.1
        have hlen := hmore.length_le
        rw [List.length_cons] at hfuel
        exact (Takes.char hc hmore).legal (ih (by omega) hnext.2)

/-- All of a document is legal if it has no declarations but the first line and can be read. -/
theorem legal_of_readDocument {newline cs : List Char} (hnewline : IsLineEnd newline) {c : Char}
    (hc : isNameStart c = true) {e : Element}
    (h : readDocument (declaration ++ (newline ++ '<' :: c :: cs)) = .ok e) :
    (∃ r, Content.element {} ('<' :: c :: cs) = .ok (e, r)) ∧
      ∀ d ∈ '<' :: c :: cs, isLegal d = true := by
  rw [readDocument, prolog_read hnewline hc] at h
  obtain ⟨found, hfound, h⟩ := bind_eq_ok_iff.mp h
  obtain rfl := Except.ok.inj hfound
  obtain ⟨⟨e', r⟩, helement, h⟩ := bind_eq_ok_iff.mp h
  obtain ⟨u, htail, he⟩ := bind_eq_ok_iff.mp h
  obtain rfl := Except.ok.inj he
  exact ⟨⟨r, helement⟩, (Content.element_takes helement).legal
    (legal_of_checkTail (Nat.lt_succ_self _) htail)⟩

end Localization.Xml
