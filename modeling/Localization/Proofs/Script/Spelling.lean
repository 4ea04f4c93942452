import Localization.Proofs.Order
import Localization.Proofs.Text
import Localization.Script.Escape
import Mathlib.Data.List.Induction
import Mathlib.Tactic.IntervalCases
import Mathlib.Tactic.SplitIfs

/-! The ways to spell a text inside a literal. Main statement: whichever way is chosen for each
character, the escape sequences of the spelling are read back as that text. -/

namespace Localization.Script

/-- A character writes a digit in base sixteen, in lower or in upper case. -/
def IsHexDigit (c : Char) (d : Nat) : Prop :=
  "0123456789abcdef".toList[d]? = some c ∨ "0123456789ABCDEF".toList[d]? = some c

/-- Characters write a number in base sixteen, with zeros before it perhaps. -/
inductive Hexadecimal : List Char → Nat → Prop
  | digit {c : Char} {d : Nat} (h : IsHexDigit c d) : Hexadecimal [c] d
  | snoc {cs : List Char} {n : Nat} {c : Char} {d : Nat} (h : Hexadecimal cs n)
    (hdigit : IsHexDigit c d) : Hexadecimal (cs ++ [c]) (16 * n + d)

/-- An escape sequence that gives the number of a code point. -/
inductive Numeric : List Char → Nat → Prop
  | byte {ds : List Char} {n : Nat} (h : Hexadecimal ds n) (hlength : ds.length = 2) :
    Numeric ('\\' :: 'x' :: ds) n
  | unit {ds : List Char} {n : Nat} (h : Hexadecimal ds n) (hlength : ds.length = 4) :
    Numeric ('\\' :: 'u' :: ds) n
  | braced {ds : List Char} {n : Nat} (h : Hexadecimal ds n) :
    Numeric ('\\' :: 'u' :: '{' :: (ds ++ ['}'])) n

/-- The ways to spell a character. -/
inductive SpellsChar (c : Char) : List Char → Prop
  | plain (h : c ≠ '\\') : SpellsChar c [c]
  | quoted (h : c ∉ ['n', 'r', 't', 'x', 'u']) : SpellsChar c ['\\', c]
  | lineFeed (h : c = '\n') : SpellsChar c ['\\', 'n']
  | carriageReturn (h : c = '\r') : SpellsChar c ['\\', 'r']
  | tab (h : c = '\t') : SpellsChar c ['\\', 't']
  | numeric {e : List Char} (h : Numeric e c.toNat) : SpellsChar c e
  /-- Two escape sequences, one for each of the code units of a character above U+FFFF. -/
  | pair {high low : List Char} {h l : Nat} (hunits : (CodePoint.char c).units16 = [h, l])
    (hhigh : Numeric high h) (hlow : Numeric low l) : SpellsChar c (high ++ low)

/-- A spelling of a text: one of each of its characters. -/
inductive Spelling : List Char → List Char → Prop
  | nil : Spelling [] []
  | cons {c : Char} {w s cs : List Char} (h : SpellsChar c w) (hrest : Spelling s cs) :
    Spelling (c :: s) (w ++ cs)

/-! Numbers. -/

theorem IsHexDigit.value {c : Char} {d : Nat} (h : IsHexDigit c d) : hexDigit? c = some d := by
  have hd : d < 16 := by
    rcases h with h | h <;> exact (List.getElem?_eq_some_iff.mp h).1
  interval_cases d <;> rcases h with h | h <;> cases h <;> rfl

theorem IsHexDigit.of_value {c : Char} {d : Nat} (h : hexDigit? c = some d) : IsHexDigit c d := by
  have hle (a b : Char) : a ≤ b ↔ a.toNat ≤ b.toNat := UInt32.le_iff_toNat_le
  have hc : c = Char.ofNat c.toNat := (Char.ofNat_toNat c).symm
  simp only [hexDigit?, hle, Char.reduceToNat] at h
  generalize c.toNat = n at h hc
  subst hc
  split_ifs at h with hdecimal hlower hupper
  · obtain rfl := Option.some.inj h
    obtain ⟨hleast, hmost⟩ := hdecimal
    interval_cases n <;> exact .inl rfl
  · obtain rfl := Option.some.inj h
    obtain ⟨hleast, hmost⟩ := hlower
    interval_cases n <;> exact .inl rfl
  · obtain rfl := Option.some.inj h
    obtain ⟨hleast, hmost⟩ := hupper
    interval_cases n <;> exact .inr rfl

theorem hexFrom?_append (acc : Nat) (cs ds : List Char) :
    hexFrom? acc (cs ++ ds) = (hexFrom? acc cs).bind fun n => hexFrom? n ds := by
  induction cs generalizing acc with
  | nil => rfl
  | cons c cs ih =>
    simp only [List.cons_append, hexFrom?, Option.bind_assoc, ih]

namespace Hexadecimal

variable {ds : List Char} {n : Nat}

theorem value_from (h : Hexadecimal ds n) : hexFrom? 0 ds = some n := by
  induction h with
  | digit h => simp [hexFrom?, h.value]
  | snoc _ hdigit ih => simp [hexFrom?_append, ih, hexFrom?, hdigit.value]

theorem ne_nil (h : Hexadecimal ds n) : ds ≠ [] := by
  cases h <;> simp

theorem value (h : Hexadecimal ds n) : hex? ds = some n := by
  have hne := h.ne_nil
  cases ds with
  | nil => exact absurd rfl hne
  | cons d ds => exact h.value_from

theorem of_value (h : hex? ds = some n) : Hexadecimal ds n := by
  induction ds using List.reverseRecOn generalizing n with
  | nil => cases h
  | append_singleton ds c ih =>
    have hfrom : hex? (ds ++ [c]) = hexFrom? 0 (ds ++ [c]) := by cases ds <;> rfl
    rw [hfrom, hexFrom?_append] at h
    obtain ⟨m, hm, hn⟩ := Option.bind_eq_some_iff.mp h
    obtain ⟨d, hd, hn⟩ := Option.bind_eq_some_iff.mp hn
    obtain rfl := Option.some.inj hn
    cases ds with
    | nil =>
      obtain rfl := Option.some.inj hm
      exact .digit (by simpa using IsHexDigit.of_value hd)
    | cons e ds => exact .snoc (ih hm) (.of_value hd)

theorem digits (h : Hexadecimal ds n) : ∀ d ∈ ds, (hexDigit? d).isSome = true := by
  induction h with
  | digit h => simp [h.value]
  | snoc _ hdigit ih => simpa [or_imp, forall_and, hdigit.value] using ih

theorem not_mem (h : Hexadecimal ds n) {c : Char} (hc : hexDigit? c = none) : c ∉ ds := by
  intro hmem
  simpa [hc] using h.digits c hmem

/-- The digits before a closing brace are those up to it. -/
theorem takeWhile_brace (h : Hexadecimal ds n) (cs : List Char) :
    (ds ++ '}' :: cs).takeWhile (· ≠ '}') = ds := by
  have hds : ∀ d ∈ ds, (decide (d ≠ '}')) = true := fun d hd => by
    simpa using ne_of_mem_of_not_mem hd (h.not_mem rfl)
  rw [List.takeWhile_append_of_pos hds]
  simp

end Hexadecimal

/-! Reading. -/

theorem unescapeFrom_skip (ds cs : List Char) :
    unescapeFrom ds.length (ds ++ cs) = unescapeFrom 0 cs := by
  induction ds with
  | nil => rfl
  | cons d ds ih => exact ih

/-- An escape sequence with a number is read as the code point that has it. -/
theorem Numeric.read {e : List Char} {n : Nat} {p : CodePoint} (h : Numeric e n)
    (hp : CodePoint.ofNat? n = some p) (cs : List Char) :
    unescapeFrom 0 (e ++ cs) = (unescapeFrom 0 cs).map (p :: ·) := by
  have hread : ∀ after, escapeAfter (after ++ cs) = .ok (p, after.length) →
      unescapeFrom 0 ('\\' :: after ++ cs) = (unescapeFrom 0 cs).map (p :: ·) := by
    intro after hafter
    simp [unescapeFrom, hafter, unescapeFrom_skip]
  cases h with
  | byte h hlength =>
    refine hread _ ?_
    simp [escapeAfter, hlength, hexEscape, h.value, hp, Except.map]
  | @unit ds n h hlength =>
    refine hread _ ?_
    obtain ⟨d, ds, rfl⟩ := List.exists_cons_of_ne_nil h.ne_nil
    have hd : d ≠ '{' := ne_of_mem_of_not_mem (List.mem_cons_self ..) (h.not_mem rfl)
    have htake : (d :: (ds ++ cs)).take 4 = d :: ds := by
      rw [← List.cons_append]
      exact List.take_left' hlength
    simp [escapeAfter, hd, htake, hlength, hexEscape, h.value, hp, Except.map]
  | @braced ds n h =>
    refine hread _ ?_
    have htake := h.takeWhile_brace cs
    simp only [List.cons_append, List.append_assoc, List.nil_append, escapeAfter, htake, hexEscape,
      h.value, Option.bind_some, hp, Except.map]
    rw [if_neg (by simp)]
    simp

/-- What the spelling of a character is read as: the character, or its two surrogates. -/
structure ReadAs (w : List Char) (c : Char) (read : Text) : Prop where
  unescaped : ∀ cs, unescapeFrom 0 (w ++ cs) = (unescapeFrom 0 cs).map (read ++ ·)
  joined : ∀ t, Text.joinSurrogates (read ++ t) = .char c :: Text.joinSurrogates t

theorem ReadAs.char {w : List Char} {c : Char}
    (h : ∀ cs, unescapeFrom 0 (w ++ cs) = (unescapeFrom 0 cs).map (.char c :: ·)) :
    ReadAs w c [.char c] := ⟨h, fun _ => by simp [Text.joinSurrogates]⟩

/-- A character with two code units is the one that two surrogates encode. -/
theorem joinSurrogates_units {c : Char} {h l : Nat} (hunits : (CodePoint.char c).units16 = [h, l]) :
    ∃ high low : Fin 2048, CodePoint.ofNat? h = some (.surrogate high) ∧
      CodePoint.ofNat? l = some (.surrogate low) ∧
      ∀ t, Text.joinSurrogates (.surrogate high :: .surrogate low :: t) =
        .char c :: Text.joinSurrogates t := by
  rcases CodePoint.units16_cases (.char c) with ⟨-, hone⟩ | ⟨m, n, hm, hn, hvalue, htwo⟩
  · simp [hone] at hunits
  have hvalue : c.toNat = 0x10000 + m * 1024 + n := hvalue
  obtain ⟨rfl, rfl⟩ : h = 0xD800 + m ∧ l = 0xDC00 + n := by
    simpa [htwo, eq_comm] using hunits
  have hsurrogate (k : Nat) (hk : k < 2048) :
      CodePoint.ofNat? (0xD800 + k) = some (.surrogate ⟨k, hk⟩) := CodePoint.ofNat?_surrogate ⟨k, hk⟩
  refine ⟨⟨m, by omega⟩, ⟨0x400 + n, by omega⟩, hsurrogate m _, ?_, fun t => ?_⟩
  · rw [← hsurrogate (0x400 + n)]
    congr 1
    omega
  · have hchar : Char.ofNat (0x10000 + 0x400 * m + n) = c := by
      rw [← Char.ofNat_toNat c, hvalue, Nat.mul_comm]
    simp [Text.joinSurrogates, hm, hchar]

theorem SpellsChar.exists_read {c : Char} {w : List Char} (h : SpellsChar c w) :
    ∃ read, ReadAs w c read := by
  cases h with
  | plain h => exact ⟨_, .char fun cs => by simp [unescapeFrom, h]⟩
  | quoted h =>
    refine ⟨_, .char fun cs => ?_⟩
    simp only [List.mem_cons, List.not_mem_nil, not_or, or_false] at h
    simp [unescapeFrom, escapeAfter, h]
  | lineFeed h | carriageReturn h | tab h =>
    subst h
    exact ⟨_, .char fun cs => by simp [unescapeFrom, escapeAfter]⟩
  | numeric h => exact ⟨_, .char (h.read (CodePoint.ofNat?_char c))⟩
  | pair hunits hhigh hlow =>
    obtain ⟨high, low, hh, hl, hjoin⟩ := joinSurrogates_units hunits
    refine ⟨[.surrogate high, .surrogate low], fun cs => ?_, hjoin⟩
    rw [List.append_assoc, hhigh.read hh, hlow.read hl]
    cases unescapeFrom 0 cs <;> rfl

/-- Whatever way is chosen to spell each character of a text, escape sequences are replaced to give
the text. -/
theorem unescape_spelling {s cs : List Char} (h : Spelling s cs) :
    unescape cs = .ok (.ofChars s) := by
  suffices hread : ∃ t, unescapeFrom 0 cs = .ok t ∧ Text.joinSurrogates t = .ofChars s by
    obtain ⟨t, ht, hjoin⟩ := hread
    rw [unescape, ht, ← hjoin]
    rfl
  induction h with
  | nil => exact ⟨[], rfl, rfl⟩
  | @cons c w s cs hc _ ih =>
    obtain ⟨t, ht, hjoin⟩ := ih
    obtain ⟨read, hread⟩ := hc.exists_read
    refine ⟨read ++ t, ?_, ?_⟩
    · rw [hread.unescaped, ht]
      rfl
    · rw [hread.joined, hjoin]
      rfl

/-- A number of two digits, a letter for a line feed, a character as it is, two surrogates of which
the first one has zeros before its number, and a backslash behind another one. -/
theorem unescape_spelling_mixed :
    let text := ['j', '\n', 'u', '😀', '\\']
    let spelled := "\\x6A\\nu\\u\x7b00d83D\x7d\\uDe00\\\\".toList
    Spelling text spelled ∧ unescape spelled = .ok (.ofChars text) := by
  intro text spelled
  have hj : Hexadecimal ['6', 'A'] 0x6A := .snoc (n := 6) (d := 10) (.digit (.inl rfl)) (.inr rfl)
  have hhigh : Hexadecimal ['0', '0', 'd', '8', '3', 'D'] 0xD83D :=
    .snoc (n := 0xD83) (d := 13) (.snoc (n := 0xD8) (d := 3) (.snoc (n := 0xD) (d := 8)
      (.snoc (n := 0) (d := 13) (.snoc (n := 0) (d := 0) (.digit (.inl rfl)) (.inl rfl)) (.inl rfl))
      (.inl rfl)) (.inl rfl)) (.inr rfl)
  have hlow : Hexadecimal ['D', 'e', '0', '0'] 0xDE00 :=
    .snoc (n := 0xDE0) (d := 0) (.snoc (n := 0xDE) (d := 0) (.snoc (n := 0xD) (d := 14)
      (.digit (.inr rfl)) (.inl rfl)) (.inl rfl)) (.inl rfl)
  have hface : SpellsChar '😀' "\\u\x7b00d83D\x7d\\uDe00".toList :=
    .pair rfl (.braced hhigh) (.unit hlow rfl)
  have hspelled : Spelling text spelled :=
    .cons (w := ['\\', 'x', '6', 'A']) (.numeric (.byte hj rfl)) <|
    .cons (w := ['\\', 'n']) (.lineFeed rfl) <| .cons (w := ['u']) (.plain (by decide)) <|
    .cons hface <| .cons (w := ['\\', '\\']) (.quoted (by decide)) .nil
  exact ⟨hspelled, unescape_spelling hspelled⟩

end Localization.Script
