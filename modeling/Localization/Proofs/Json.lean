import Localization.Json.Reader
import Localization.Json.Writer
import Localization.Proofs.Fields
import Localization.Proofs.Runs
import Localization.Proofs.Text

/-! What is written is read back: the text of a value that is built of strings, arrays and objects
gives the value again, unless it is nested more deeply than values are read. -/

namespace Localization

namespace Json

/-- A value built of strings without lone surrogates, of arrays, and of objects with distinct keys.
At most `n` arrays and objects stand in each other. -/
inductive Textual : Nat → Json → Prop
  | string {n : Nat} (cs : List Char) : Textual n (.string (.ofChars cs))
  | array {n : Nat} {items : List Json} (each : ∀ v ∈ items, Textual n v) :
    Textual (n + 1) (.array items)
  | object {n : Nat} {fields : Fields Json} (named : ∀ f ∈ fields, ∃ cs, f.1 = Text.ofChars cs)
    (distinct : fields.keys.Nodup) (each : ∀ f ∈ fields, Textual n f.2) :
    Textual (n + 1) (.object fields)

/-! Strings: every escape is read as the code point that it was written for. -/

theorem hexValue?_digit {d : Nat} (h : d < 16) :
    hexValue? (.char (Char.ofNat (if d < 10 then 48 + d else 87 + d))) = some d := by
  have hall : ∀ d < 16, hexValue? (.char (Char.ofNat (if d < 10 then 48 + d else 87 + d))) =
      some d := by decide
  exact hall d h

theorem unit_hexDigits {n : Nat} (h : n < 0x10000) (p : CodePoint) (rest : Text) :
    unit (.char 'u' :: (Text.ofChars (hexDigits n) ++ p :: rest)) = .ok (n, p :: rest) := by
  have h1 := hexValue?_digit (Nat.mod_lt (n / 4096) (by decide : 0 < 16))
  have h2 := hexValue?_digit (Nat.mod_lt (n / 256) (by decide : 0 < 16))
  have h3 := hexValue?_digit (Nat.mod_lt (n / 16) (by decide : 0 < 16))
  have h4 := hexValue?_digit (Nat.mod_lt n (by decide : 0 < 16))
  simp only [hexDigits, List.map_cons, List.map_nil, Text.ofChars_cons, Text.ofChars_nil,
    List.cons_append, List.nil_append, unit, h1, h2, h3, h4, Except.ok.injEq, Prod.mk.injEq,
    and_true]
  omega

/-- Text that is read as one code point of a string. -/
def Spells (t : Text) (p : CodePoint) : Prop :=
  ∀ (opening : Text) (fuel : Nat) (done rest : Text), rest ≠ [] →
    stringFrom opening (fuel + 1) done (t ++ rest) = stringFrom opening fuel (p :: done) rest

theorem spells_self {p : CodePoint} (hq : p ≠ .char '"') (hb : p ≠ .char '\\')
    (hc : 0x20 ≤ p.toNat) : Spells [p] p := by
  intro opening fuel done rest _
  have hlow : ¬ p.toNat < 0x20 := by omega
  rw [List.singleton_append, stringFrom]
  · simp [CodePoint.isChar, hq, hlow]
  all_goals simp [hb]

theorem spells_letter {c d : Char} (hu : d ≠ 'u') (hd : letterEscape? (.char d) = some c) :
    Spells (.ofChars ['\\', d]) (.char c) := by
  intro opening fuel done rest _
  rw [Text.ofChars_cons, Text.ofChars_cons, Text.ofChars_nil, List.cons_append,
    List.singleton_append, stringFrom]
  · rw [hd]
  · simpa using hu

theorem spells_unit {p : CodePoint} (hp : p.toNat < 0x20) : Spells (unitEscape p.toNat) p := by
  intro opening fuel done rest hrest
  obtain ⟨e, rest, rfl⟩ := List.exists_cons_of_ne_nil hrest
  have hhigh : ¬ (0xD800 ≤ p.toNat ∧ p.toNat < 0xDC00) := by omega
  rw [unitEscape, Text.ofChars_cons, Text.ofChars_cons, List.cons_append, List.cons_append,
    stringFrom, unit_hexDigits (by omega)]
  simp only [bind, Except.bind, CodePoint.ofNat_toNat]
  split
  · rw [if_neg hhigh]
  · rfl

/-- A code point inside a string is written so that it is read back. -/
theorem spells_escaped (p : CodePoint) : escaped p ≠ [] ∧ Spells (escaped p) p := by
  unfold escaped
  split
  · exact ⟨by simp, spells_letter (by decide) rfl⟩
  · exact ⟨by simp, spells_letter (by decide) rfl⟩
  · exact ⟨by simp, spells_letter (by decide) rfl⟩
  · exact ⟨by simp, spells_letter (by decide) rfl⟩
  · exact ⟨by simp, spells_letter (by decide) rfl⟩
  · exact ⟨by simp, spells_letter (by decide) rfl⟩
  · exact ⟨by simp, spells_letter (by decide) rfl⟩
  · rename_i hquote hbackslash _ _ _ _ _
    split
    · rename_i hp
      exact ⟨by simp [unitEscape], spells_unit hp⟩
    · rename_i hp
      exact ⟨by simp, spells_self hquote hbackslash (by omega)⟩

/-- A string is read up to its closing quote. -/
theorem stringFrom_escaped (t opening done rest : Text) {fuel : Nat}
    (hfuel : (t.flatMap escaped).length < fuel) :
    stringFrom opening fuel done (t.flatMap escaped ++ .char '"' :: rest) =
      .ok (done.reverse ++ t, rest) := by
  induction t generalizing done fuel with
  | nil =>
    obtain ⟨fuel, rfl⟩ := Nat.exists_eq_add_one.mpr (Nat.zero_lt_of_lt hfuel)
    rw [List.flatMap_nil, List.nil_append, stringFrom]
    all_goals simp [CodePoint.isChar]
  | cons p t ih =>
    obtain ⟨hne, hspells⟩ := spells_escaped p
    have hpos := List.length_pos_iff.mpr hne
    rw [List.flatMap_cons, List.length_append] at hfuel
    obtain ⟨fuel, rfl⟩ := Nat.exists_eq_add_one.mpr (Nat.zero_lt_of_lt hfuel)
    rw [List.flatMap_cons, List.append_assoc, hspells _ _ _ _ (by simp), ih _ (by omega)]
    simp

theorem quotedText_quoted (t rest : Text) :
    quotedText (quoted escaped t ++ rest) = .ok (t, rest) := by
  have hread := stringFrom_escaped t (quoted escaped t ++ rest) [] rest
    (show _ < (quoted escaped t ++ rest).length + 1 by simp [quoted]; omega)
  simpa [quotedText, quoted] using hread

/-! Values: an array or an object is read item by item. -/

theorem skipBlanks_newline (n : Nat) {p : CodePoint} (rest : Text) (hp : isBlank p = false) :
    skipBlanks (newline n ++ p :: rest) = p :: rest := by
  have hblank : ∀ q ∈ newline n, isBlank q = true := by
    intro q hq
    simp only [newline, List.mem_cons, List.mem_replicate] at hq
    rcases hq with rfl | ⟨-, rfl⟩ <;> decide
  exact dropWhile_run hblank (by simpa using hp)

/-- Text that is read as a value. It begins with a quote or a bracket. -/
def Writes (nesting : Nat) (t : Text) (v : Json) : Prop :=
  (∃ c ∈ ['"', '[', '{'], ∃ r, t = .char c :: r) ∧
    ∀ (fuel : Nat) (rest : Text), t.length ≤ fuel →
      valueFrom fuel nesting (t ++ rest) = .ok (v, rest)

theorem isBlank_opening {c : Char} (h : c ∈ ['"', '[', '{']) : isBlank (.char c) = false := by
  simp only [List.mem_cons, List.not_mem_nil, or_false] at h
  rcases h with rfl | rfl | rfl <;> rfl

section Lines

variable {nesting : Nat} (n m : Nat)

/-- Items on lines of their own are read one after the other. -/
theorem itemsFrom_lines {vs : List Json} (hne : vs ≠ [])
    (h : ∀ v ∈ vs, Writes nesting (renderAt n v) v) : ∃ c ∈ ['"', '[', '{'], ∃ r,
      Text.join (.char ',' :: newline n) (renderItems n vs) = .char c :: r ∧
      ∀ (fuel : Nat) (done : List Json) (rest : Text), r.length + 1 < fuel →
        itemsFrom fuel nesting done (.char c :: r ++ newline m ++ .char ']' :: rest) =
          .ok (done.reverse ++ vs, rest) := by
  induction vs with
  | nil => exact absurd rfl hne
  | cons v vs ih =>
    obtain ⟨⟨c, hc, t, ht⟩, hread⟩ := h v (by simp)
    rw [ht, List.length_cons] at hread
    have hclose : isBlank (.char ']') = false := by decide
    cases vs with
    | nil =>
      refine ⟨c, hc, t, by simp [renderItems, Text.join, ht], fun fuel done rest hfuel => ?_⟩
      obtain ⟨fuel, rfl⟩ := Nat.exists_eq_add_one.mpr (Nat.zero_lt_of_lt hfuel)
      rw [itemsFrom, List.append_assoc, hread _ _ (by omega)]
      simp only [bind, Except.bind, skipBlanks_newline m rest hclose]
      simp
    | cons w vs =>
      obtain ⟨d, hd, u, hu, hrest⟩ := ih (by simp) fun x hx => h x (List.mem_cons_of_mem _ hx)
      refine ⟨c, hc, t ++ .char ',' :: newline n ++ .char d :: u, ?_,
        fun fuel done rest hfuel => ?_⟩
      · rw [renderItems] at hu
        simp only [renderItems, Text.join, ht, hu]
        simp
      · obtain ⟨fuel, rfl⟩ := Nat.exists_eq_add_one.mpr (Nat.zero_lt_of_lt hfuel)
        simp only [List.length_append, List.length_cons] at hfuel
        have hsplit : .char c :: (t ++ .char ',' :: newline n ++ .char d :: u) ++ newline m ++
            .char ']' :: rest =
            .char c :: t ++ .char ',' ::
              (newline n ++ .char d :: (u ++ newline m ++ .char ']' :: rest)) := by simp
        have hcomma : isBlank (.char ',') = false := by decide
        rw [itemsFrom, hsplit, hread _ _ (by omega)]
        simp only [bind, Except.bind]
        rw [skipBlanks, List.dropWhile_cons_of_neg (by simp [hcomma])]
        simp only [skipBlanks_newline n _ (isBlank_opening hd)]
        have hrest := hrest fuel (v :: done) rest (by omega)
        simpa using hrest

/-- Fields on lines of their own are put into a map one after the other. -/
theorem fieldsFrom_lines {fs : Fields Json} (hne : fs ≠ [])
    (h : ∀ f ∈ fs, Writes nesting (renderAt n f.2) f.2) : ∃ r,
      Text.join (.char ',' :: newline n) (renderFields n fs) = .char '"' :: r ∧
      ∀ (fuel : Nat) (done : Fields Json) (rest : Text), r.length + 1 < fuel →
        fieldsFrom fuel nesting done (.char '"' :: r ++ newline m ++ .char '\x7d' :: rest) =
          .ok (fs.foldl (fun m e => m.put e.1 e.2) done, rest) := by
  induction fs with
  | nil => exact absurd rfl hne
  | cons f fs ih =>
    obtain ⟨k, v⟩ := f
    obtain ⟨q, hq⟩ : ∃ q, quoted escaped k = .char '"' :: q := ⟨_, rfl⟩
    have hkey : ∀ after, quotedText (.char '"' :: q ++ after) = .ok (k, after) := fun after =>
      hq ▸ quotedText_quoted k after
    obtain ⟨⟨c, hc, t, ht⟩, hread⟩ := h (k, v) (by simp)
    rw [ht, List.length_cons] at hread
    have hclose : isBlank (.char '\x7d') = false := by decide
    have hcolon : isBlank (.char ':') = false := by decide
    have hspace : isBlank (.char ' ') = true := by decide
    have hcomma : isBlank (.char ',') = false := by decide
    have hvalue : ∀ after, skipBlanks (.char ':' :: .char ' ' :: (.char c :: t ++ after)) =
        .char ':' :: .char ' ' :: (.char c :: t ++ after) ∧
        skipBlanks (.char ' ' :: (.char c :: t ++ after)) = .char c :: t ++ after := by
      intro after
      simp [skipBlanks, hcolon, hspace, isBlank_opening hc]
    cases fs with
    | nil =>
      refine ⟨q ++ .char ':' :: .char ' ' :: .char c :: t,
        by simp [renderFields, Text.join, hq, ht], fun fuel done rest hfuel => ?_⟩
      obtain ⟨fuel, rfl⟩ := Nat.exists_eq_add_one.mpr (Nat.zero_lt_of_lt hfuel)
      simp only [List.length_append, List.length_cons] at hfuel
      have hsplit : .char '"' :: (q ++ .char ':' :: .char ' ' :: .char c :: t) ++ newline m ++
          .char '\x7d' :: rest =
          .char '"' :: q ++ .char ':' :: .char ' ' ::
            (.char c :: t ++ (newline m ++ .char '\x7d' :: rest)) := by simp
      rw [hsplit, List.cons_append, fieldsFrom, ← List.cons_append, hkey]
      simp only [bind, Except.bind, hvalue, hread _ _ (show t.length + 1 ≤ fuel by omega),
        skipBlanks_newline m rest hclose, List.foldl_cons, List.foldl_nil]
    | cons g fs =>
      obtain ⟨u, hu, hrest⟩ := ih (by simp) fun x hx => h x (List.mem_cons_of_mem _ hx)
      refine ⟨q ++ .char ':' :: .char ' ' :: .char c :: t ++ .char ',' :: newline n ++
        .char '"' :: u, ?_, fun fuel done rest hfuel => ?_⟩
      · rw [renderFields] at hu
        simp only [renderFields, Text.join, hq, ht, hu]
        simp
      · obtain ⟨fuel, rfl⟩ := Nat.exists_eq_add_one.mpr (Nat.zero_lt_of_lt hfuel)
        simp only [List.length_append, List.length_cons] at hfuel
        have hsplit : .char '"' :: (q ++ .char ':' :: .char ' ' :: .char c :: t ++ .char ',' ::
            newline n ++ .char '"' :: u) ++ newline m ++ .char '\x7d' :: rest =
            .char '"' :: q ++ .char ':' :: .char ' ' :: (.char c :: t ++ .char ',' ::
              (newline n ++ .char '"' :: (u ++ newline m ++ .char '\x7d' :: rest))) := by simp
        have hquote : isBlank (.char '"') = false := by decide
        have hskip : ∀ after, skipBlanks (.char ',' :: after) = .char ',' :: after := by
          simp [skipBlanks, hcomma]
        rw [hsplit, List.cons_append, fieldsFrom, ← List.cons_append, hkey]
        simp only [bind, Except.bind, hvalue, hread _ _ (show t.length + 1 ≤ fuel by omega),
          hskip, skipBlanks_newline n _ hquote]
        exact hrest fuel _ rest (by omega)

end Lines

theorem bracketed_lines (opening closing : Char) (n : Nat) {items : List Text} {t : Text}
    (hne : items ≠ []) (h : Text.join (.char ',' :: newline (n + 1)) items = t) :
    bracketed opening closing n items =
      .char opening :: (newline (n + 1) ++ t ++ newline n ++ [.char closing]) := by
  simp [bracketed, hne, h]

/-- The text of a value is read as the value, wherever it stands. -/
theorem writes_renderAt {nesting : Nat} {v : Json} (hv : Textual nesting v) (n : Nat) :
    Writes nesting (renderAt n v) v := by
  induction hv generalizing n with
  | string cs =>
    refine ⟨⟨'"', by simp, _, rfl⟩, fun fuel rest hfuel => ?_⟩
    obtain ⟨fuel, rfl⟩ := Nat.exists_eq_add_one.mpr (Nat.lt_of_lt_of_le (Nat.succ_pos _) hfuel)
    have hread := quotedText_quoted (.ofChars cs) rest
    have hrender : renderAt n (.string (.ofChars cs)) = quoted escaped (.ofChars cs) := by
      simp [renderAt, scalar]
    rw [hrender]
    rw [quoted, List.cons_append, List.cons_append] at hread ⊢
    rw [valueFrom, hread]
    rfl
  | @array nesting items _ ih =>
    cases items with
    | nil =>
      refine ⟨⟨'[', by simp, [.char ']'], rfl⟩, fun fuel rest hfuel => ?_⟩
      obtain ⟨fuel, rfl⟩ := Nat.exists_eq_add_one.mpr (Nat.lt_of_lt_of_le (Nat.succ_pos _) hfuel)
      rfl
    | cons v vs =>
      obtain ⟨c, hc, t, ht, hread⟩ :=
        itemsFrom_lines (n + 1) n (by simp) fun u hu => ih u hu (n + 1)
      have hrender := bracketed_lines '[' ']' n (by simp [renderItems]) ht
      rw [renderAt, hrender]
      refine ⟨⟨'[', by simp, _, rfl⟩, fun fuel rest hfuel => ?_⟩
      obtain ⟨fuel, rfl⟩ := Nat.exists_eq_add_one.mpr (Nat.lt_of_lt_of_le (Nat.succ_pos _) hfuel)
      simp only [List.length_append, List.length_cons] at hfuel
      have hitems := hread fuel [] rest (by omega)
      have hskip : skipBlanks (newline (n + 1) ++
          .char c :: (t ++ newline n ++ .char ']' :: rest)) = _ :=
        skipBlanks_newline _ _ (isBlank_opening hc)
      simp only [List.append_assoc, List.cons_append, List.nil_append] at hskip hitems ⊢
      simp only [List.mem_cons, List.not_mem_nil, or_false] at hc
      rcases hc with rfl | rfl | rfl <;> simp only [valueFrom, hskip] <;>
        exact congrArg (Except.map fun r => (Json.array r.1, r.2)) hitems
  | @object nesting fields _ distinct _ ih =>
    cases fields with
    | nil =>
      refine ⟨⟨'\x7b', by simp, [.char '\x7d'], rfl⟩, fun fuel rest hfuel => ?_⟩
      obtain ⟨fuel, rfl⟩ := Nat.exists_eq_add_one.mpr (Nat.lt_of_lt_of_le (Nat.succ_pos _) hfuel)
      rfl
    | cons f fs =>
      obtain ⟨t, ht, hread⟩ := fieldsFrom_lines (n + 1) n (by simp) fun u hu => ih u hu (n + 1)
      have hrender := bracketed_lines '\x7b' '\x7d' n (by simp [renderFields]) ht
      rw [renderAt, hrender]
      refine ⟨⟨'\x7b', by simp, _, rfl⟩, fun fuel rest hfuel => ?_⟩
      obtain ⟨fuel, rfl⟩ := Nat.exists_eq_add_one.mpr (Nat.lt_of_lt_of_le (Nat.succ_pos _) hfuel)
      simp only [List.length_append, List.length_cons] at hfuel
      have hfields := hread fuel [] rest (by omega)
      have hskip : skipBlanks (newline (n + 1) ++
          .char '"' :: (t ++ newline n ++ .char '\x7d' :: rest)) = _ :=
        skipBlanks_newline _ _ rfl
      have hself : (f :: fs).foldl (fun m e => Fields.put e.1 e.2 m) [] = f :: fs :=
        Fields.ofList_eq_self distinct
      rw [hself] at hfields
      simp only [List.append_assoc, List.cons_append, List.nil_append] at hskip hfields ⊢
      simp only [valueFrom, hskip]
      exact congrArg (Except.map fun r => (Json.object r.1, r.2)) hfields

/-- The text of a value is read as the value. -/
theorem read_render {nesting : Nat} {v : Json} (hv : Textual nesting v) :
    read (render v) nesting = .ok v := by
  obtain ⟨⟨c, hc, t, ht⟩, hread⟩ := writes_renderAt hv 0
  have hskip : skipBlanks (.char c :: t) = .char c :: t := by
    simp [skipBlanks, isBlank_opening hc]
  rw [ht] at hread
  have hvalue := hread (2 * (CodePoint.char c :: t).length + 2) [] (by omega)
  rw [List.append_nil] at hvalue
  rw [read, render, ht, hskip, hvalue]
  rfl

theorem parse_render {nesting : Nat} {v : Json} (hv : Textual nesting v) :
    parse (render v) nesting = .ok v := by
  obtain ⟨⟨c, hc, t, ht⟩, -⟩ := writes_renderAt hv 0
  have hmark : (render v).head? ≠ some (.char '\ufeff') := by
    rw [render, ht, List.head?_cons]
    intro h
    obtain rfl := CodePoint.char.inj (Option.some.inj h)
    exact absurd hc (by decide)
  rw [parse, if_neg hmark, read_render hv]

end Json

end Localization
