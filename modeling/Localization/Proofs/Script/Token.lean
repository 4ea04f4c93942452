import Localization.Proofs.Result
import Localization.Proofs.Runs
import Localization.Proofs.Script.Spelling

/-! The inside of a literal as a sequence of tokens: characters that stand for themselves and escape
sequences, told apart from left to right. There is one such sequence for every text. Escape
sequences are replaced exactly if none of them is malformed, and the first malformed one is the one
that is reported. -/

namespace Localization.Script

/-- What stands at some place inside a literal. -/
inductive Token where
  | plain (c : Char)
  /-- A backslash and the letter of a control character. -/
  | control (c : Char)
  /-- A backslash and a character that begins no other escape sequence. -/
  | quoted (c : Char)
  /-- A backslash, `x` and the two characters behind it, or fewer at the end. -/
  | byte (digits : List Char)
  /-- A backslash, `u` and the four characters behind it, or fewer at the end. -/
  | unit (digits : List Char)
  /-- A backslash, `u`, a brace and the characters up to the first closing brace. -/
  | braced (digits : List Char)
  /-- The same if no brace closes. -/
  | unclosed (digits : List Char)
  /-- A backslash at the end. -/
  | lone
  deriving DecidableEq, Repr

namespace Token

/-- The characters of a token. -/
def chars : Token → List Char
  | plain c => [c]
  | control c => ['\\', c]
  | quoted c => ['\\', c]
  | byte ds => '\\' :: 'x' :: ds
  | unit ds => '\\' :: 'u' :: ds
  | braced ds => '\\' :: 'u' :: '{' :: (ds ++ ['}'])
  | unclosed ds => '\\' :: 'u' :: '{' :: ds
  | lone => ['\\']

/-- A token is the first one of a text that goes on with `rest` behind it. -/
def Begins (rest : List Char) : Token → Prop
  | plain c => c ≠ '\\'
  | control c => c ∈ ['n', 'r', 't']
  | quoted c => c ∉ ['n', 'r', 't', 'x', 'u']
  | byte ds => ds = (ds ++ rest).take 2
  | unit ds => (ds ++ rest).head? ≠ some '{' ∧ ds = (ds ++ rest).take 4
  | braced ds => '}' ∉ ds
  | unclosed ds => '}' ∉ ds ∧ rest = []
  | lone => rest = []

/-- The characters that are to be digits. -/
def digits : Token → List Char
  | byte ds | unit ds | braced ds => ds
  | _ => []

/-- How many digits a number has at least. -/
def least : Token → Nat
  | byte _ => 2
  | unit _ => 4
  | braced _ => 1
  | _ => 0

/-- What the escape sequences that are malformed have wrong with them. -/
inductive Malformed : Token → Prop
  | short {t : Token} (h : t.digits.length < t.least) : Malformed t
  | digit {t : Token} {c : Char} (hc : c ∈ t.digits) (h : ∀ d, ¬ IsHexDigit c d) : Malformed t
  | large {t : Token} {n : Nat} (hn : Hexadecimal t.digits n) (h : 0x10FFFF < n) : Malformed t
  | unclosed (ds : List Char) : Malformed (.unclosed ds)

/-- The code point that a token stands for. -/
inductive Stands : Token → CodePoint → Prop
  | plain (c : Char) : Stands (.plain c) (.char c)
  | lineFeed : Stands (.control 'n') (.char '\n')
  | carriageReturn : Stands (.control 'r') (.char '\r')
  | tab : Stands (.control 't') (.char '\t')
  | quoted (c : Char) : Stands (.quoted c) (.char c)
  | number {t : Token} {p : CodePoint} (h : Hexadecimal t.digits p.toNat)
    (hleast : t.least ≤ t.digits.length) : Stands t p
  | lone : Stands .lone (.char '\\')

/-- The characters that a malformed token is named by: all of them, but no more than twelve if no
brace closes it. -/
def shown : Token → List Char
  | unclosed ds => (unclosed ds).chars.take 12
  | t => t.chars

/-- The error that names a malformed token. -/
def fault : Token → EscapeError
  | unclosed ds => .unterminated (unclosed ds).shown
  | t => .invalid t.shown

/-- What is read for a token. -/
def read : Token → Except EscapeError CodePoint
  | plain c => .ok (.char c)
  | control c => .ok (.char (if c = 'n' then '\n' else if c = 'r' then '\r' else '\t'))
  | quoted c => .ok (.char c)
  | unclosed ds => .error (unclosed ds).fault
  | lone => .ok (.char '\\')
  | t => if t.least ≤ t.digits.length then hexEscape t.digits t.chars else .error t.fault

end Token

/-- The tokens of the inside of a literal, from left to right. -/
inductive Split : List Char → List Token → Prop
  | nil : Split [] []
  | cons {t : Token} {rest : List Char} {ts : List Token} (h : t.Begins rest)
    (hrest : Split rest ts) : Split (t.chars ++ rest) (t :: ts)

namespace Token

/-- The first token of a text that is not empty. -/
def first : List Char → Token
  | ['\\'] => lone
  | '\\' :: 'x' :: rest => byte (rest.take 2)
  | '\\' :: 'u' :: '{' :: rest =>
    if '}' ∈ rest then braced (rest.takeWhile (· ≠ '}')) else unclosed rest
  | '\\' :: 'u' :: rest => unit (rest.take 4)
  | '\\' :: c :: _ => if c ∈ ['n', 'r', 't'] then control c else quoted c
  | c :: _ => plain c
  | [] => lone

variable {t u : Token} {rest more : List Char} {p : CodePoint} {e : EscapeError}

theorem Begins.first (h : t.Begins rest) : first (t.chars ++ rest) = t := by
  cases t with
  | plain c | quoted c => simp_all [chars, Begins, Token.first]
  | control c =>
    simp only [Begins, List.mem_cons, List.not_mem_nil, or_false] at h
    rcases h with rfl | rfl | rfl <;> rfl
  | byte ds => exact congrArg byte h.symm
  | unit ds =>
    obtain ⟨hbrace, htake⟩ := h
    rw [chars, List.cons_append, List.cons_append, Token.first]
    · rw [← htake]
    · intro more hmore
      exact hbrace (by rw [hmore]; rfl)
  | braced ds =>
    have htake : (ds ++ '}' :: rest).takeWhile (· ≠ '}') = ds :=
      takeWhile_run (fun d hd => by simpa using ne_of_mem_of_not_mem hd h) (by simp)
    simp only [chars, List.cons_append, List.append_assoc, List.nil_append, Token.first, htake]
    simp
  | unclosed ds | lone => simp_all [chars, Begins, Token.first]

/-- A text begins with one token. -/
theorem Begins.unique (ht : t.Begins rest) (hu : u.Begins more)
    (h : t.chars ++ rest = u.chars ++ more) : t = u ∧ rest = more := by
  obtain rfl : t = u := by rw [← ht.first, h, hu.first]
  exact ⟨rfl, List.append_cancel_left h⟩

theorem begins_byte (cs : List Char) : (byte (cs.take 2)).Begins (cs.drop 2) := by
  simp [Begins]

theorem begins_unit (cs : List Char) (h : cs.head? ≠ some '{') :
    (unit (cs.take 4)).Begins (cs.drop 4) := by
  simpa [Begins] using h

theorem exists_begins {cs : List Char} (h : cs ≠ []) :
    ∃ (t : Token) (rest : List Char), cs = t.chars ++ rest ∧ t.Begins rest := by
  fun_cases Token.first cs with
  | case1 => exact ⟨lone, [], rfl, rfl⟩
  | case2 rest => exact ⟨_, _, by simp [chars], begins_byte rest⟩
  | case3 rest hbrace =>
    obtain ⟨ds, more, rfl, hds⟩ := List.eq_append_cons_of_mem hbrace
    exact ⟨braced ds, more, by simp [chars], hds⟩
  | case4 rest hbrace => exact ⟨unclosed rest, [], by simp [chars], hbrace, rfl⟩
  | case5 rest hbrace =>
    refine ⟨_, _, by simp [chars], begins_unit rest ?_⟩
    intro hhead
    obtain ⟨more, rfl⟩ := List.head?_eq_some_iff.mp hhead
    exact hbrace more rfl
  | case6 c rest _ _ _ hc => exact ⟨control c, rest, rfl, hc⟩
  | case7 c rest hx _ hu hc =>
    refine ⟨quoted c, rest, rfl, ?_⟩
    simp only [List.mem_cons, List.not_mem_nil, or_false, not_or] at hc
    simp only [Begins, List.mem_cons, List.not_mem_nil, or_false, not_or]
    exact ⟨hc.1, hc.2.1, hc.2.2, hx, hu⟩
  | case8 c rest hlone _ _ _ hescape =>
    refine ⟨plain c, rest, rfl, fun hc => ?_⟩
    cases rest with
    | nil => exact hlone hc rfl
    | cons d rest => exact hescape d rest hc rfl
  | case9 => exact absurd rfl h

end Token

/-! Numbers of escape sequences. -/

theorem Hexadecimal.exists_of_digits {ds : List Char} (hne : ds ≠ [])
    (h : ∀ c ∈ ds, ∃ d, IsHexDigit c d) : ∃ n, Hexadecimal ds n := by
  induction ds using List.reverseRecOn with
  | nil => exact absurd rfl hne
  | append_singleton ds c ih =>
    obtain ⟨d, hd⟩ := h c (by simp)
    by_cases hds : ds = []
    · subst hds
      exact ⟨d, .digit hd⟩
    · obtain ⟨n, hn⟩ := ih hds fun e he => h e (by simp [he])
      exact ⟨16 * n + d, .snoc hn hd⟩

theorem Hexadecimal.isHexDigit {ds : List Char} {n : Nat} (h : Hexadecimal ds n) :
    ∀ c ∈ ds, ∃ d, IsHexDigit c d := by
  intro c hc
  obtain ⟨d, hd⟩ := Option.isSome_iff_exists.mp (h.digits c hc)
  exact ⟨d, .of_value hd⟩

theorem Hexadecimal.unique {ds : List Char} {m n : Nat} (hm : Hexadecimal ds m)
    (hn : Hexadecimal ds n) : m = n :=
  Option.some.inj (hm.value.symm.trans hn.value)

section Number

variable {ds escape : List Char} {p : CodePoint} {e : EscapeError}

theorem hexEscape_eq_ok_iff : hexEscape ds escape = .ok p ↔ Hexadecimal ds p.toNat := by
  have hvalue : (hex? ds).bind CodePoint.ofNat? = some p ↔ Hexadecimal ds p.toNat := by
    rw [Option.bind_eq_some_iff]
    constructor
    · rintro ⟨n, hn, hp⟩
      obtain rfl := CodePoint.ofNat?_eq_some_iff.mp hp
      exact .of_value hn
    · intro h
      exact ⟨p.toNat, h.value, CodePoint.ofNat?_eq_some_iff.mpr rfl⟩
  rw [← hvalue, hexEscape]
  cases (hex? ds).bind CodePoint.ofNat? <;> simp

/-- Characters that write the number of no code point are reported with the escape sequence that
they stand in. -/
theorem hexEscape_eq_error_iff (hne : ds ≠ []) :
    hexEscape ds escape = .error e ↔
      ((∃ c ∈ ds, ∀ d, ¬ IsHexDigit c d) ∨ ∃ n, Hexadecimal ds n ∧ 0x10FFFF < n) ∧
        e = .invalid escape := by
  have hvalue : (hex? ds).bind CodePoint.ofNat? = none ↔
      (∃ c ∈ ds, ∀ d, ¬ IsHexDigit c d) ∨ ∃ n, Hexadecimal ds n ∧ 0x10FFFF < n := by
    by_cases hdigits : ∀ c ∈ ds, ∃ d, IsHexDigit c d
    · obtain ⟨n, hn⟩ := Hexadecimal.exists_of_digits hne hdigits
      have hnone : ¬ ∃ c ∈ ds, ∀ d, ¬ IsHexDigit c d := by
        rintro ⟨c, hc, hno⟩
        obtain ⟨d, hd⟩ := hdigits c hc
        exact hno d hd
      rw [hn.value, Option.bind_some, CodePoint.ofNat?_eq_none_iff, or_iff_right hnone]
      exact ⟨fun h => ⟨n, hn, h⟩, fun ⟨m, hm, h⟩ => hm.unique hn ▸ h⟩
    · have hnone : hex? ds = none := by
        by_contra hsome
        obtain ⟨n, hn⟩ := Option.ne_none_iff_exists'.mp hsome
        exact hdigits (Hexadecimal.of_value hn).isHexDigit
      simp only [not_forall, not_exists] at hdigits
      obtain ⟨c, hc, hno⟩ := hdigits
      simp only [hnone, Option.bind_none, true_iff]
      exact .inl ⟨c, hc, hno⟩
  rw [← hvalue, hexEscape]
  cases (hex? ds).bind CodePoint.ofNat? <;> simp [eq_comm]

end Number

/-! What is read for a text. -/

theorem unescapeFrom_drop (n : Nat) (cs : List Char) :
    unescapeFrom n cs = unescapeFrom 0 (cs.drop n) := by
  induction cs generalizing n with
  | nil => cases n <;> rfl
  | cons c cs ih =>
    cases n with
    | zero => rfl
    | succ n => exact ih n

/-- Characters before the first backslash stand for themselves. -/
theorem unescapeFrom_plain {cs : List Char} (h : '\\' ∉ cs) (rest : List Char) :
    unescapeFrom 0 (cs ++ rest) = (unescapeFrom 0 rest).map (.ofChars cs ++ ·) := by
  induction cs with
  | nil =>
    rw [List.nil_append]
    cases unescapeFrom 0 rest <;> rfl
  | cons c cs ih =>
    simp only [List.mem_cons, not_or] at h
    rw [List.cons_append, unescapeFrom, if_neg (Ne.symm h.1), ih h.2]
    cases unescapeFrom 0 rest <;> rfl

/-- Characters behind a backslash that are read as an escape sequence. -/
theorem unescapeFrom_escape (after : List Char) {rest : List Char}
    {r : Except EscapeError CodePoint} (h : escapeAfter (after ++ rest) = r.map (·, after.length)) :
    unescapeFrom 0 ('\\' :: (after ++ rest)) =
      r.bind fun p => (unescapeFrom 0 rest).map (p :: ·) := by
  rw [unescapeFrom, if_pos rfl, h]
  cases r with
  | error e => rfl
  | ok p => exact congrArg (Except.map _) (unescapeFrom_skip after rest)

namespace Token

variable {t u : Token} {rest : List Char} {p : CodePoint} {e : EscapeError}

/-! What a token stands for, or what is wrong with it. -/

theorem read_of_least (h : 0 < t.least) :
    t.read = if t.least ≤ t.digits.length then hexEscape t.digits t.chars
      else .error (.invalid t.chars) := by
  cases t with
  | byte ds | unit ds | braced ds => rfl
  | _ => cases h

theorem fault_of_least (h : 0 < t.least) : t.fault = .invalid t.chars := by
  cases t with
  | byte ds | unit ds | braced ds => rfl
  | _ => cases h

theorem malformed_iff_of_least (h : 0 < t.least) :
    t.Malformed ↔ t.digits.length < t.least ∨ (∃ c ∈ t.digits, ∀ d, ¬ IsHexDigit c d) ∨
      ∃ n, Hexadecimal t.digits n ∧ 0x10FFFF < n := by
  constructor
  · intro hbad
    cases hbad with
    | short hshort => exact .inl hshort
    | digit hc hno => exact .inr (.inl ⟨_, hc, hno⟩)
    | large hn hlarge => exact .inr (.inr ⟨_, hn, hlarge⟩)
    | unclosed ds => cases h
  · rintro (hshort | ⟨c, hc, hno⟩ | ⟨n, hn, hlarge⟩)
    · exact .short hshort
    · exact .digit hc hno
    · exact .large hn hlarge

/-- Nothing is wrong with a token that is to have no digits, if it is not an open brace. -/
theorem not_malformed (hleast : t.least = 0) (hdigits : t.digits = [])
    (hclosed : ∀ ds, t ≠ unclosed ds) : ¬ t.Malformed := by
  intro hbad
  cases hbad with
  | short hshort => omega
  | digit hc hno => simp [hdigits] at hc
  | large hn hlarge => exact hn.ne_nil hdigits
  | unclosed ds => exact hclosed ds rfl

/-- A number is read as the code point that has it. -/
theorem read_number (h : 0 < t.least) :
    t.read = .ok p ↔ Hexadecimal t.digits p.toNat ∧ t.least ≤ t.digits.length := by
  rw [read_of_least h]
  split
  · rename_i hlength
    rw [hexEscape_eq_ok_iff, and_iff_left hlength]
  · rename_i hlength
    simp [hlength]

theorem read_number_error (h : 0 < t.least) :
    t.read = .error e ↔ t.Malformed ∧ e = t.fault := by
  rw [read_of_least h, fault_of_least h, malformed_iff_of_least h]
  split
  · rename_i hlength
    have hne : t.digits ≠ [] := List.ne_nil_of_length_pos (by omega)
    rw [hexEscape_eq_error_iff hne, or_iff_right (by omega : ¬ t.digits.length < t.least)]
  · rename_i hlength
    rw [and_iff_right (.inl (by omega)), Except.error.injEq, eq_comm]

/-- What is read for a token is the code point that it stands for. -/
theorem read_eq_ok_iff (h : t.Begins rest) : t.read = .ok p ↔ t.Stands p := by
  constructor
  · intro hp
    cases t with
    | plain c | quoted c =>
      obtain rfl := Except.ok.inj hp
      constructor
    | lone =>
      obtain rfl := Except.ok.inj hp
      exact .lone
    | control c =>
      obtain rfl := Except.ok.inj hp
      simp only [Begins, List.mem_cons, List.not_mem_nil, or_false] at h
      rcases h with rfl | rfl | rfl <;> constructor
    | unclosed ds => cases hp
    | byte ds | unit ds | braced ds =>
      obtain ⟨hnumber, hlength⟩ := (read_number (by simp [least])).mp hp
      exact .number hnumber hlength
  · intro hp
    cases hp with
    | @number t _ hnumber hlength =>
      cases t with
      | byte ds | unit ds | braced ds => exact (read_number (by simp [least])).mpr ⟨hnumber, hlength⟩
      | _ => exact absurd rfl hnumber.ne_nil
    | _ => rfl

/-- A malformed token is refused with its fault, and no other token is refused. -/
theorem read_eq_error_iff : t.read = .error e ↔ t.Malformed ∧ e = t.fault := by
  cases t with
  | byte ds | unit ds | braced ds => exact read_number_error (by simp [least])
  | unclosed ds =>
    constructor
    · intro h
      exact ⟨.unclosed ds, (Except.error.inj h).symm⟩
    · rintro ⟨-, rfl⟩
      rfl
  | plain c | control c | quoted c | lone =>
    exact iff_of_false nofun fun h => not_malformed rfl rfl (by simp) h.1

theorem shown_message (t : Token) : t.shown <:+: t.fault.message.toList := by
  have hmessage : ∃ before after, t.fault.message = before ++ String.ofList t.shown ++ after := by
    cases t <;> exact ⟨_, _, rfl⟩
  obtain ⟨before, after, hmessage⟩ := hmessage
  rw [hmessage, String.toList_append, String.toList_append, String.toList_ofList]
  exact ⟨before.toList, after.toList, rfl⟩

theorem exists_read_iff : (∃ p, t.read = .ok p) ↔ ¬ t.Malformed := by
  constructor
  · rintro ⟨p, hp⟩ hbad
    have hfault := read_eq_error_iff.mpr ⟨hbad, rfl⟩
    rw [hp] at hfault
    cases hfault
  · intro hgood
    cases hread : t.read with
    | ok p => exact ⟨p, rfl⟩
    | error e => exact absurd (read_eq_error_iff.mp hread).1 hgood

/-- The first token of a text is read, then what is behind it. -/
theorem Begins.read (h : t.Begins rest) : unescapeFrom 0 (t.chars ++ rest) =
    t.read.bind fun p => (unescapeFrom 0 rest).map (p :: ·) := by
  cases t with
  | plain c => rw [chars, List.singleton_append, unescapeFrom, if_neg h]; rfl
  | control c =>
    simp only [Begins, List.mem_cons, List.not_mem_nil, or_false] at h
    rcases h with rfl | rfl | rfl <;> exact unescapeFrom_escape [_] rfl
  | quoted c =>
    simp only [Begins, List.mem_cons, List.not_mem_nil, or_false, not_or] at h
    refine unescapeFrom_escape [c] ?_
    simp [escapeAfter, h]
    rfl
  | byte ds =>
    refine unescapeFrom_escape ('x' :: ds) ?_
    have hshort : ds.length ≤ 2 := by rw [h]; exact List.length_take_le ..
    rw [List.cons_append, escapeAfter, ← h, read_of_least (by simp [least])]
    by_cases hlength : ds.length = 2
    · simp [hlength, least, digits, chars]
    · simp [hlength, least, digits, chars, show ¬ 2 ≤ ds.length by omega, Except.map]
  | unit ds =>
    obtain ⟨hbrace, htake⟩ := h
    refine unescapeFrom_escape ('u' :: ds) ?_
    have hshort : ds.length ≤ 4 := by rw [htake]; exact List.length_take_le ..
    rw [List.cons_append, escapeAfter, ← htake, read_of_least (by simp [least])]
    · by_cases hlength : ds.length = 4
      · simp [hlength, least, digits, chars]
      · simp [hlength, least, digits, chars, show ¬ 4 ≤ ds.length by omega, Except.map]
    · intro more hmore
      exact hbrace (by rw [hmore]; rfl)
  | braced ds =>
    refine unescapeFrom_escape ('u' :: '{' :: (ds ++ ['}'])) ?_
    have htake : (ds ++ ['}'] ++ rest).takeWhile (· ≠ '}') = ds := by
      rw [List.append_assoc]
      exact takeWhile_run (fun d hd => by simpa using ne_of_mem_of_not_mem hd h) (by simp)
    rw [List.cons_append, List.cons_append, escapeAfter, htake, read_of_least (by simp [least]),
      if_neg (by simp)]
    cases ds with
    | nil => rfl
    | cons d ds => simp [least, digits, chars]
  | unclosed ds =>
    obtain ⟨hbrace, rfl⟩ := h
    refine unescapeFrom_escape ('u' :: '{' :: ds) ?_
    have htake : ds.takeWhile (· ≠ '}') = ds :=
      List.takeWhile_eq_self_iff.mpr fun d hd => by simpa using ne_of_mem_of_not_mem hd hbrace
    rw [List.append_nil, escapeAfter, htake, if_pos rfl]
    rfl
  | lone =>
    obtain rfl : rest = [] := h
    rfl

end Token

namespace Split

variable {cs : List Char} {ts us : List Token}

theorem exists_split (cs : List Char) : ∃ ts, Split cs ts := by
  induction hn : cs.length using Nat.strong_induction_on generalizing cs with
  | _ n ih =>
    by_cases hcs : cs = []
    · exact ⟨[], hcs ▸ .nil⟩
    · obtain ⟨t, rest, rfl, ht⟩ := Token.exists_begins hcs
      have hpos : 0 < t.chars.length := by cases t <;> simp [Token.chars]
      obtain ⟨ts, hts⟩ := ih rest.length (by simp at hn; omega) rest rfl
      exact ⟨t :: ts, .cons ht hts⟩

/-- A text that begins with a token is split there. -/
theorem cons_inv {t : Token} {rest : List Char} (h : Split (t.chars ++ rest) us)
    (ht : t.Begins rest) : ∃ ts, us = t :: ts ∧ Split rest ts := by
  generalize hcs : t.chars ++ rest = cs at h
  cases h with
  | nil => cases t <;> simp [Token.chars] at hcs
  | cons hu hmore =>
    obtain ⟨rfl, rfl⟩ := ht.unique hu hcs
    exact ⟨_, rfl, hmore⟩

theorem unique (ht : Split cs ts) (hu : Split cs us) : us = ts := by
  induction ht generalizing us with
  | nil =>
    generalize hcs : [] = cs at hu
    cases hu with
    | nil => rfl
    | @cons t _ _ _ _ => cases t <;> simp [Token.chars] at hcs
  | cons h _ ih =>
    obtain ⟨us, rfl, hmore⟩ := hu.cons_inv h
    rw [ih hmore]

/-- The tokens of a text are read one by one. -/
theorem read (h : Split cs ts) : unescapeFrom 0 cs = ts.mapM Token.read := by
  induction h with
  | nil => rfl
  | @cons t rest ts h _ ih =>
    rw [h.read, ih, List.mapM_cons]
    cases t.read with
    | error e => rfl
    | ok p => cases ts.mapM Token.read <;> rfl

theorem begins (h : Split cs ts) : ∀ t ∈ ts, ∃ rest, t.Begins rest := by
  induction h with
  | nil => simp
  | cons h _ ih => exact List.forall_mem_cons.mpr ⟨⟨_, h⟩, ih⟩

/-- Escape sequences are replaced if each token stands for a code point. -/
theorem read_eq_ok_iff (h : Split cs ts) {t : Text} :
    unescapeFrom 0 cs = .ok t ↔ List.Forall₂ Token.Stands ts t := by
  rw [h.read, mapM_eq_ok_iff]
  refine forall₂_congr fun t ht p => ?_
  obtain ⟨rest, hbegins⟩ := h.begins t ht
  exact Token.read_eq_ok_iff hbegins

/-- Otherwise the first token that is malformed is reported. -/
theorem read_eq_error_iff (h : Split cs ts) {e : EscapeError} :
    unescapeFrom 0 cs = .error e ↔ ∃ before t after, ts = before ++ t :: after ∧
      (∀ u ∈ before, ¬ u.Malformed) ∧ t.Malformed ∧ e = t.fault := by
  rw [h.read]
  constructor
  · intro herror
    obtain ⟨before, t, after, hts, ht, hbefore⟩ := mapM_eq_error herror
    exact ⟨before, t, after, hts, fun u hu => Token.exists_read_iff.mp (hbefore u hu),
      Token.read_eq_error_iff.mp ht⟩
  · rintro ⟨before, t, after, rfl, hbefore, ht⟩
    exact mapM_error_of_first (fun u hu => Token.exists_read_iff.mpr (hbefore u hu))
      (Token.read_eq_error_iff.mpr ht)

theorem exists_error_iff (h : Split cs ts) :
    (∃ e, unescapeFrom 0 cs = .error e) ↔ ∃ t ∈ ts, t.Malformed := by
  constructor
  · rintro ⟨e, herror⟩
    obtain ⟨before, t, after, rfl, -, hbad, -⟩ := h.read_eq_error_iff.mp herror
    exact ⟨t, by simp, hbad⟩
  · rintro ⟨t, ht, hbad⟩
    cases hread : unescapeFrom 0 cs with
    | error e => exact ⟨e, rfl⟩
    | ok values =>
      rw [h.read, mapM_eq_ok_iff] at hread
      obtain ⟨p, -, hp⟩ := exists_of_forall₂ hread t ht
      exact absurd hbad (Token.exists_read_iff.mp ⟨p, hp⟩)

end Split

end Localization.Script
