/-! Text as programs and data files spell it: a sequence of Unicode code points in which a surrogate
may stand alone. A literal such as `'\ud83d'` denotes such text, and no byte sequence encodes it, so
text is told apart from `List Char`, the contents of a decoded file. -/

namespace Localization

/-- A code point: a character, or the surrogate U+D800 + `n`. -/
inductive CodePoint where
  | char (c : Char)
  | surrogate (n : Fin 2048)
  deriving DecidableEq, Repr, Inhabited

namespace CodePoint

/-- The number of a code point. -/
def toNat : CodePoint → Nat
  | .char c => c.toNat
  | .surrogate n => 0xD800 + n.val

/-- The code point with number `n`, for `n` up to U+10FFFF. -/
def ofNat? (n : Nat) : Option CodePoint :=
  if h : n.isValidChar then some (.char (Char.ofNatAux n h))
  else if h : 0xD800 ≤ n ∧ n < 0xE000 then some (.surrogate ⟨n - 0xD800, by omega⟩)
  else none

/-- The code point with a number; U+FFFD for numbers that have none. -/
def ofNat (n : Nat) : CodePoint := (ofNat? n).getD (.char '\ufffd')

/-- The UTF-16 code units of a code point: one, or two for a character above U+FFFF. -/
def units16 : CodePoint → List Nat
  | .surrogate n => [0xD800 + n.val]
  | .char c =>
    if c.toNat < 0x10000 then [c.toNat]
    else [0xD800 + (c.toNat - 0x10000) / 0x400, 0xDC00 + (c.toNat - 0x10000) % 0x400]

/-- Whether a code point is the character `c`. -/
def isChar (c : Char) (p : CodePoint) : Bool := p == .char c

/-- Whether a code point is a character of a kind. A surrogate is of none. -/
def isOf (kind : Char → Bool) : CodePoint → Bool
  | .char c => kind c
  | .surrogate _ => false

/-- A code point with a character changed. -/
def mapChar (f : Char → Char) : CodePoint → CodePoint
  | .char c => .char (f c)
  | .surrogate n => .surrogate n

end CodePoint

/-- Code points one after another. -/
abbrev Text := List CodePoint

namespace Text

/-- The text of characters. -/
def ofChars (cs : List Char) : Text := cs.map .char

/-- The text of a string. -/
def ofString (s : String) : Text := ofChars s.toList

/-- The characters of text; nothing if a surrogate stands alone. -/
def toChars? : Text → Option (List Char)
  | [] => some []
  | .char c :: t => (toChars? t).map (c :: ·)
  | .surrogate _ :: _ => none

/-- The string of text; nothing if a surrogate stands alone. -/
def toString? (t : Text) : Option String := (toChars? t).map String.ofList

/-- The UTF-16 code units of text. -/
def units16 (t : Text) : List Nat := t.flatMap CodePoint.units16

/-- Each high surrogate directly before a low one becomes the character that the two encode. -/
def joinSurrogates : Text → Text
  | .surrogate h :: .surrogate l :: t =>
    if h.val < 0x400 ∧ 0x400 ≤ l.val then
      .char (Char.ofNat (0x10000 + 0x400 * h.val + (l.val - 0x400))) :: joinSurrogates t
    else .surrogate h :: joinSurrogates (.surrogate l :: t)
  | p :: t => p :: joinSurrogates t
  | [] => []

/-- Texts one after another, with `sep` between them. -/
def join (sep : Text) : List Text → Text
  | [] => []
  | [t] => t
  | t :: ts => t ++ sep ++ join sep ts

end Text

instance : Coe String Text := ⟨Text.ofString⟩

@[simp] theorem Text.toChars?_ofChars (cs : List Char) : (ofChars cs).toChars? = some cs := by
  induction cs with
  | nil => rfl
  | cons c cs ih =>
    show (Text.toChars? (ofChars cs)).map (c :: ·) = some (c :: cs)
    rw [ih]; rfl

/-- Text has characters exactly when it is written with them alone. -/
theorem Text.toChars?_eq_some_iff {t : Text} {cs : List Char} :
    t.toChars? = some cs ↔ t = ofChars cs := by
  constructor
  · intro h
    induction t generalizing cs with
    | nil => cases h; rfl
    | cons p t ih =>
      cases p with
      | surrogate n => exact absurd h (by simp [toChars?])
      | char c =>
        obtain ⟨ds, hd, rfl⟩ := Option.map_eq_some_iff.1 h
        rw [ih hd]; rfl
  · rintro rfl; simp

end Localization
