import Localization.Proofs.Xml.Attribute

/-! Content is read token by token. An element that is read from a text that holds nothing else is
read in the same way wherever the text stands in a document. -/

namespace Localization.Xml.Content

theorem section_local : Local section_ := by
  intro cs a r h rest
  fun_induction section_ cs generalizing a with
  | case1 => cases h
  | case2 cs =>
    obtain ⟨rfl, rfl⟩ := by simpa using h
    rfl
  | case3 => cases h
  | case4 => cases h
  | case5 => cases h
  | case6 cs ih =>
    obtain ⟨⟨v, tail⟩, hv, he⟩ := map_eq_ok_iff.mp h
    obtain ⟨rfl, rfl⟩ := by simpa using he
    rw [List.cons_append, List.cons_append, section_, ih hv]
    rfl
  | case7 cs hone hlf ih =>
    obtain ⟨⟨v, tail⟩, hv, he⟩ := map_eq_ok_iff.mp h
    obtain ⟨rfl, rfl⟩ := by simpa using he
    obtain ⟨c, cs, rfl⟩ := List.exists_cons_of_ne_nil hone
    have ih := ih hv
    rw [List.cons_append, section_, ih]
    · rfl
    all_goals simp_all
  | case8 c cs hend hbrackets hbracket hreturn hlf hcr hc ih =>
    obtain ⟨⟨v, tail⟩, hv, he⟩ := map_eq_ok_iff.mp h
    obtain ⟨rfl, rfl⟩ := by simpa using he
    have hends : ∀ tail, c = ']' → cs ++ rest = ']' :: '>' :: tail → False := by
      intro tail hc htail
      match cs, hv with
      | [d], _ =>
        obtain ⟨rfl, -⟩ := by simpa using htail
        exact hbrackets hc rfl
      | d :: e :: cs, _ =>
        obtain ⟨rfl, rfl, -⟩ := by simpa using htail
        exact hend cs hc rfl
    obtain ⟨d, cs, rfl⟩ : ∃ d more, cs = d :: more := by
      cases cs with
      | nil => cases hv
      | cons d cs => exact ⟨d, cs, rfl⟩
    rw [List.cons_append, section_, if_pos hc, ih hv]
    · rfl
    · exact hends
    all_goals simp_all
  | case9 => cases h

/-- Tokens that say the same, wherever they are written. -/
inductive Token.Same : Token → Token → Prop
  | opening {t t' : OpeningTag} (h : t'.shape = t.shape) : Same (.opening t) (.opening t')
  | closing (name : List Char) (left left' : Nat) : Same (.closing name left) (.closing name left')
  | chars (cs : List Char) : Same (.chars cs) (.chars cs)
  | entity (name : List Char) : Same (.entity name) (.entity name)
  | nothing : Same .nothing .nothing

/-! What the token is, by the characters that it begins with. -/

section Beginning

variable (cs : List Char)

theorem token_closing : token ('<' :: '/' :: cs) =
    ((scanClosingTag cs).mapError (TokenError.fault (cs.length + 2))).map
      fun r => (.closing r.1 cs.length, r.2) :=
  rfl

theorem token_comment : token ('<' :: '!' :: '-' :: '-' :: cs) =
    ((scanComment cs).mapError (TokenError.fault (cs.length + 4))).map
      fun r => (.nothing, r.2) :=
  rfl

theorem token_section : token ('<' :: '!' :: '[' :: cs) =
    ((scanSectionOpen cs).mapError (TokenError.fault (cs.length + 3))).bind
      fun r => (section_ r.2).map fun r => (.chars r.1, r.2) :=
  rfl

theorem token_instruction : token ('<' :: '?' :: cs) =
    ((scanInstruction cs).mapError (TokenError.fault (cs.length + 2))).bind
      fun r => if r.1 then .error ⟨.misplacedDeclaration, cs.length + 2⟩ else .ok (.nothing, r.2) :=
  rfl

theorem token_reference : token ('&' :: cs) =
    ((scanReference cs).mapError (TokenError.fault (cs.length + 1))).bind fun
      | (.number n, rest) =>
        match numbered? n with
        | some c => .ok (.chars [c], rest)
        | none => .error ⟨.invalidNumber, cs.length + 1⟩
      | (.entity name, rest) =>
        match standardEntity? name with
        | some c => .ok (.chars [c], rest)
        | none => .ok (.entity name, rest) :=
  rfl

end Beginning

/-- An opening tag comes after a sign that begins nothing else. -/
theorem token_opening (c : Char) (cs : List Char) (hc : c ≠ '/' ∧ c ≠ '!' ∧ c ≠ '?') :
    token ('<' :: c :: cs) =
      ((scanOpeningTag (c :: cs)).mapError (TokenError.fault ('<' :: c :: cs).length)).map
        fun r => (.opening r.1, r.2) := by
  rw [token]
  all_goals simp_all

theorem opening_of_isNameStart {c : Char} (hc : isNameStart c = true) :
    c ≠ '/' ∧ c ≠ '!' ∧ c ≠ '?' := by
  refine ⟨?_, ?_, ?_⟩ <;> rintro rfl <;> revert hc <;> decide

/-- A character that begins nothing else is plain, and plain characters make up a token up to the
first other one. -/
theorem token_other {c : Char} (hc : c ≠ '<' ∧ c ≠ '&' ∧ c ≠ ']' ∧ c ≠ '\r') (cs : List Char) :
    token (c :: cs) =
      if isPlain c then
        .ok (.chars ((c :: cs).takeWhile isPlain), (c :: cs).dropWhile isPlain)
      else .error ⟨.invalidToken, cs.length + 1⟩ := by
  rw [token]
  · cases hplain : isPlain c <;> simp [List.span_eq_takeWhile_dropWhile, hplain]
  all_goals simp_all

theorem token_plain {c : Char} (cs : List Char) (hc : isPlain c = true) :
    token (c :: cs) = .ok (.chars ((c :: cs).takeWhile isPlain), (c :: cs).dropWhile isPlain) := by
  have hother : c ≠ '<' ∧ c ≠ '&' ∧ c ≠ ']' ∧ c ≠ '\r' := by
    refine ⟨?_, ?_, ?_, ?_⟩ <;> rintro rfl <;> revert hc <;> decide
  rw [token_other hother, if_pos hc]

/-- A bracket stands for itself unless another one and a `>` follow. -/
theorem token_bracket {cs : List Char} (h : ∀ u, cs ≠ ']' :: '>' :: u) :
    token (']' :: cs) = .ok (.chars [']'], cs) := by
  rw [token]
  exact h

theorem token_return {cs : List Char} (h : ∀ u, cs ≠ '\n' :: u) :
    token ('\r' :: cs) = .ok (.chars ['\n'], cs) := by
  rw [token]
  exact h

/-- A token at the beginning of a text, by the characters that it begins with, and what follows
it. -/
inductive Token.Found : Token → List Char → List Char → Prop
  | closing {cs name r : List Char} (h : scanClosingTag cs = .ok (name, r)) :
    Found (.closing name cs.length) ('<' :: '/' :: cs) r
  | comment {cs r : List Char} {u : Unit} (h : scanComment cs = .ok (u, r)) :
    Found .nothing ('<' :: '!' :: '-' :: '-' :: cs) r
  | section_ {cs opened chars r : List Char} {u : Unit}
    (hopen : scanSectionOpen cs = .ok (u, opened)) (h : section_ opened = .ok (chars, r)) :
    Found (.chars chars) ('<' :: '!' :: '[' :: cs) r
  | instruction {cs r : List Char} (h : scanInstruction cs = .ok (false, r)) :
    Found .nothing ('<' :: '?' :: cs) r
  | opening {c : Char} {cs r : List Char} {tag : OpeningTag} (hc : c ≠ '/' ∧ c ≠ '!' ∧ c ≠ '?')
    (h : scanOpeningTag (c :: cs) = .ok (tag, r)) : Found (.opening tag) ('<' :: c :: cs) r
  | number {cs r : List Char} {n : Nat} {c : Char} (h : scanReference cs = .ok (.number n, r))
    (hc : numbered? n = some c) : Found (.chars [c]) ('&' :: cs) r
  | standard {cs name r : List Char} {c : Char} (h : scanReference cs = .ok (.entity name, r))
    (hc : standardEntity? name = some c) : Found (.chars [c]) ('&' :: cs) r
  | entity {cs name r : List Char} (h : scanReference cs = .ok (.entity name, r))
    (hname : standardEntity? name = none) : Found (.entity name) ('&' :: cs) r
  | bracket {cs : List Char} (h : ∀ u, cs ≠ ']' :: '>' :: u) : Found (.chars [']']) (']' :: cs) cs
  | lineEnd (cs : List Char) : Found (.chars ['\n']) ('\r' :: '\n' :: cs) cs
  | «return» {cs : List Char} (h : ∀ u, cs ≠ '\n' :: u) : Found (.chars ['\n']) ('\r' :: cs) cs
  | plain {c : Char} (cs : List Char) (hc : isPlain c = true) :
    Found (.chars ((c :: cs).takeWhile isPlain)) (c :: cs) ((c :: cs).dropWhile isPlain)

section Found

variable {cs r : List Char} {t : Token}

theorem Token.Found.token_eq (h : t.Found cs r) : token cs = .ok (t, r) := by
  cases h with
  | closing h => rw [token_closing, h]; rfl
  | comment h => rw [token_comment, h]; rfl
  | section_ hopen h => simp [token_section, hopen, h, Except.map, Except.mapError, Except.bind]
  | instruction h => rw [token_instruction, h]; rfl
  | opening hc h => rw [token_opening _ _ hc, h]; rfl
  | number h hc | standard h hc | entity h hc =>
    simp [token_reference, h, hc, Except.mapError, Except.bind]
  | bracket h => exact token_bracket h
  | lineEnd cs => rfl
  | «return» h => exact token_return h
  | plain cs hc => exact token_plain cs hc

/-- What begins with `<!` is a comment or a section. -/
theorem found_declared (h : token ('<' :: '!' :: cs) = .ok (t, r)) :
    t.Found ('<' :: '!' :: cs) r := by
  by_cases hcomment : ∃ u, cs = '-' :: '-' :: u
  · obtain ⟨u, rfl⟩ := hcomment
    rw [token_comment] at h
    obtain ⟨⟨_, after⟩, hscan, he⟩ := map_eq_ok_iff.mp h
    obtain ⟨rfl, rfl⟩ := by simpa using he
    exact .comment (mapError_eq_ok_iff.mp hscan)
  by_cases hsection : ∃ u, cs = '[' :: u
  · obtain ⟨u, rfl⟩ := hsection
    rw [token_section] at h
    obtain ⟨⟨_, opened⟩, hopen, h⟩ := bind_eq_ok_iff.mp h
    obtain ⟨⟨chars, after⟩, hsection, he⟩ := map_eq_ok_iff.mp h
    obtain ⟨rfl, rfl⟩ := by simpa using he
    exact .section_ (mapError_eq_ok_iff.mp hopen) hsection
  unfold token at h
  split at h
  case h_7 hbang _ heq => exact absurd (List.cons.inj heq).2.symm (hbang cs)
  all_goals simp_all [Except.mapError]

theorem found_markup (h : token ('<' :: cs) = .ok (t, r)) : t.Found ('<' :: cs) r := by
  cases cs with
  | nil => cases h
  | cons c cs =>
    by_cases hclosing : c = '/'
    · subst hclosing
      rw [token_closing] at h
      obtain ⟨⟨name, after⟩, hscan, he⟩ := map_eq_ok_iff.mp h
      obtain ⟨rfl, rfl⟩ := by simpa using he
      exact .closing (mapError_eq_ok_iff.mp hscan)
    by_cases hdeclared : c = '!'
    · subst hdeclared
      exact found_declared h
    by_cases hinstruction : c = '?'
    · subst hinstruction
      rw [token_instruction] at h
      obtain ⟨⟨isDeclaration, after⟩, hscan, h⟩ := bind_eq_ok_iff.mp h
      cases isDeclaration <;> cases h
      exact .instruction (mapError_eq_ok_iff.mp hscan)
    have hopening : c ≠ '/' ∧ c ≠ '!' ∧ c ≠ '?' := ⟨hclosing, hdeclared, hinstruction⟩
    rw [token_opening c cs hopening] at h
    obtain ⟨⟨tag, after⟩, hscan, he⟩ := map_eq_ok_iff.mp h
    obtain ⟨rfl, rfl⟩ := by simpa using he
    exact .opening hopening (mapError_eq_ok_iff.mp hscan)

theorem found_reference (h : token ('&' :: cs) = .ok (t, r)) : t.Found ('&' :: cs) r := by
  rw [token_reference] at h
  obtain ⟨⟨reference, after⟩, hscan, h⟩ := bind_eq_ok_iff.mp h
  have hscan := mapError_eq_ok_iff.mp hscan
  cases reference with
  | number n =>
    cases hc : numbered? n with
    | none => simp [hc] at h
    | some c =>
      obtain ⟨rfl, rfl⟩ := by simpa [hc] using h
      exact .number hscan hc
  | entity name =>
    cases hc : standardEntity? name with
    | some c =>
      obtain ⟨rfl, rfl⟩ := by simpa [hc] using h
      exact .standard hscan hc
    | none =>
      obtain ⟨rfl, rfl⟩ := by simpa [hc] using h
      exact .entity hscan hc

theorem found_characters {c : Char} (hmarkup : c ≠ '<') (hreference : c ≠ '&')
    (h : token (c :: cs) = .ok (t, r)) : t.Found (c :: cs) r := by
  by_cases hbracket : c = ']'
  · subst hbracket
    by_cases hends : ∃ u, cs = ']' :: '>' :: u
    · obtain ⟨u, rfl⟩ := hends
      cases h
    have hends := not_exists.mp hends
    obtain ⟨rfl, rfl⟩ := by simpa using (token_bracket hends).symm.trans h
    exact .bracket hends
  by_cases hreturn : c = '\r'
  · subst hreturn
    by_cases hfeed : ∃ u, cs = '\n' :: u
    · obtain ⟨u, rfl⟩ := hfeed
      cases h
      exact .lineEnd _
    have hfeed := not_exists.mp hfeed
    obtain ⟨rfl, rfl⟩ := by simpa using (token_return hfeed).symm.trans h
    exact .«return» hfeed
  rw [token_other ⟨hmarkup, hreference, hbracket, hreturn⟩] at h
  split at h
  · rename_i hplain
    obtain ⟨rfl, rfl⟩ := Prod.mk.inj (Except.ok.inj h)
    exact .plain cs hplain
  · cases h

theorem token_eq_ok_iff : token cs = .ok (t, r) ↔ t.Found cs r := by
  refine ⟨fun h => ?_, Token.Found.token_eq⟩
  cases cs with
  | nil => cases h
  | cons c cs =>
    by_cases hmarkup : c = '<'
    · subst hmarkup
      exact found_markup h
    by_cases hreference : c = '&'
    · subst hreference
      exact found_reference h
    exact found_characters hmarkup hreference h

/-- Tokens that open or close an element. -/
def Token.isTag : Token → Bool
  | .opening _ | .closing _ _ => true
  | _ => false

theorem head_of_token (h : token cs = .ok (t, r)) (ht : t.isTag = true) :
    ∃ more, cs = '<' :: more := by
  cases token_eq_ok_iff.mp h with
  | closing | opening => exact ⟨_, rfl⟩
  | _ => cases ht

/-- A token is found in the same way whatever follows the text. Characters must not end the text,
since what follows might continue them. -/
theorem Token.Found.append (h : t.Found cs r)
    (hr : ∀ plain, t = .chars plain → r ≠ [] ∧ r ≠ [']']) (rest : List Char) :
    ∃ t' : Token, t'.Found (cs ++ rest) (r ++ rest) ∧ t.Same t' := by
  cases h with
  | closing h => exact ⟨_, .closing (scanClosingTag_local h rest), .closing _ _ _⟩
  | comment h => exact ⟨_, .comment (scanComment_local h rest), .nothing⟩
  | section_ hopen h =>
    exact ⟨_, .section_ (scanSectionOpen_local hopen rest) (section_local h rest), .chars _⟩
  | instruction h => exact ⟨_, .instruction (scanInstruction_local h rest), .nothing⟩
  | opening hc h =>
    obtain ⟨tag', h', hshape⟩ := scanOpeningTag_append h rest
    exact ⟨_, .opening hc h', .opening hshape⟩
  | number h hc => exact ⟨_, .number (scanReference_local h rest) hc, .chars _⟩
  | standard h hc => exact ⟨_, .standard (scanReference_local h rest) hc, .chars _⟩
  | entity h hname => exact ⟨_, .entity (scanReference_local h rest) hname, .entity _⟩
  | bracket hends =>
    obtain ⟨hne, hbracket⟩ := hr _ rfl
    refine ⟨_, .bracket fun after hafter => ?_, .chars _⟩
    match r with
    | [d] =>
      obtain ⟨rfl, -⟩ := by simpa using hafter
      exact hbracket rfl
    | d :: e :: tail =>
      obtain ⟨rfl, rfl, -⟩ := by simpa using hafter
      exact hends tail rfl
  | lineEnd => exact ⟨_, .lineEnd _, .chars _⟩
  | «return» hfeed =>
    obtain ⟨d, tail, rfl⟩ := List.exists_cons_of_ne_nil (hr _ rfl).1
    refine ⟨_, .«return» fun after hafter => ?_, .chars _⟩
    obtain ⟨rfl, -⟩ := by simpa using hafter
    exact hfeed tail rfl
  | @plain c tail hplain =>
    have hspan := span_append (List.span_eq_takeWhile_dropWhile ..) (hr _ rfl).1 rest
    rw [List.span_eq_takeWhile_dropWhile] at hspan
    obtain ⟨htake, hdrop⟩ := Prod.mk.inj hspan
    rw [← htake, ← hdrop]
    exact ⟨_, .plain _ hplain, .chars _⟩

theorem token_append (h : token cs = .ok (t, r))
    (hr : ∀ plain, t = .chars plain → r ≠ [] ∧ r ≠ [']']) (rest : List Char) :
    ∃ t', token (cs ++ rest) = .ok (t', r ++ rest) ∧ t.Same t' :=
  ((token_eq_ok_iff.mp h).append hr rest).imp fun _ h => ⟨h.1.token_eq, h.2⟩

end Found

end Localization.Xml.Content
