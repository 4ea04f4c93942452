import Localization.File.Content
import Localization.Script.Call

/-! A document is read as it is, or with LF at the ends of its lines. Either way the lines between
the line ends are read one by one. -/

namespace Localization

/-- What can become of the line ends of a document before it is read, and what CR and LF then are:
nothing happens, CR before LF is left out, or every line end becomes LF. -/
inductive LineReading : (List Char → List Char) → List Char → Prop
  | exact : LineReading id ['\r', '\n']
  | unix : LineReading Script.unixLines ['\n']
  | plain : LineReading plainLines ['\n']

/-- No CR and LF belong together where two texts meet. -/
def Parted (a b : List Char) : Prop := a.getLast? = some '\r' → b.head? ≠ some '\n'

theorem Parted.tail {c : Char} {a b : List Char} (h : Parted (c :: a) b) : Parted a b := by
  intro ha
  refine h ?_
  rw [List.getLast?_cons, ha, Option.getD_some]

/-- Where texts are parted, a line end at the start of the first is one in both together. -/
theorem Parted.cons_ne {c : Char} {a b : List Char} (h : Parted (c :: a) b)
    (hc : ∀ cs, c = '\r' → a = '\n' :: cs → False) (cs : List Char) (hcr : c = '\r')
    (hcs : a ++ b = '\n' :: cs) : False := by
  cases a with
  | nil =>
    rw [List.nil_append] at hcs
    exact h (by rw [hcr]; rfl) (by rw [hcs]; rfl)
  | cons d a =>
    obtain ⟨rfl, -⟩ := List.cons.inj hcs
    exact hc a hcr rfl

theorem unixLines_append {a b : List Char} (h : Parted a b) :
    Script.unixLines (a ++ b) = Script.unixLines a ++ Script.unixLines b := by
  induction a using Script.unixLines.induct with
  | case1 a ih =>
    rw [List.cons_append, List.cons_append, Script.unixLines, Script.unixLines,
      ih h.tail.tail, List.cons_append]
  | case2 c a hc ih =>
    rw [List.cons_append, Script.unixLines, Script.unixLines, ih h.tail, List.cons_append]
    · exact hc
    · exact h.cons_ne hc
  | case3 => rfl

theorem plainLines_append {a b : List Char} (h : Parted a b) :
    plainLines (a ++ b) = plainLines a ++ plainLines b := by
  induction a using plainLines.induct with
  | case1 a ih =>
    rw [List.cons_append, List.cons_append, plainLines, plainLines, ih h.tail.tail,
      List.cons_append]
  | case2 a hc ih =>
    rw [List.cons_append, plainLines, plainLines, ih h.tail, List.cons_append]
    · exact fun cs => hc cs
    · exact fun cs => h.cons_ne (fun cs _ => hc cs) cs rfl
  | case3 c a _ hc ih =>
    rw [List.cons_append, plainLines, plainLines, ih h.tail, List.cons_append]
    all_goals intros; exact hc ‹_›
  | case4 => rfl

namespace LineReading

variable {f : List Char → List Char} {newline : List Char}

theorem append (hf : LineReading f newline) {a b : List Char} (h : Parted a b) :
    f (a ++ b) = f a ++ f b := by
  cases hf with
  | exact => rfl
  | unix => exact unixLines_append h
  | plain => exact plainLines_append h

theorem of_not_mem (hf : LineReading f newline) {cs : List Char} (h : '\r' ∉ cs) : f cs = cs := by
  have hone : ∀ c, c ≠ '\r' → f [c] = [c] := by
    intro c hc
    cases hf with
    | exact => rfl
    | unix => rw [Script.unixLines, Script.unixLines]; simp
    | plain => rw [plainLines, plainLines]; all_goals simp [hc]
  induction cs with
  | nil => cases hf <;> rfl
  | cons c cs ih =>
    simp only [List.mem_cons, not_or] at h
    have hparted : Parted [c] cs := by
      intro hlast
      exact absurd (by simpa using hlast) (Ne.symm h.1)
    rw [← List.singleton_append, hf.append hparted, hone c (Ne.symm h.1), ih h.2]

theorem lineEnd (hf : LineReading f newline) : f ['\r', '\n'] = newline := by
  cases hf <;> rfl

/-- Text without CR before other text is read by itself. -/
theorem verbatim (hf : LineReading f newline) {a : List Char} (h : '\r' ∉ a) (b : List Char) :
    f (a ++ b) = a ++ f b := by
  rw [hf.append, hf.of_not_mem h]
  intro hlast
  exact absurd (List.mem_of_getLast? hlast) h

/-- What is read begins with LF if the text does. -/
theorem head (hf : LineReading f newline) {cs : List Char} (h : cs.head? = some '\n') :
    (f cs).head? = some '\n' := by
  obtain ⟨c, cs, rfl⟩ : ∃ c more, cs = c :: more := by
    cases cs with
    | nil => cases h
    | cons c more => exact ⟨c, more, rfl⟩
  obtain rfl : c = '\n' := by simpa using h
  rw [← List.singleton_append, hf.verbatim (by decide)]
  rfl

/-- Lines that come one after the other, each behind a line end. -/
def lines (newline : List Char) (ls : List (List Char)) : List Char :=
  ls.flatMap fun l => newline ++ l

/-- Lines behind line ends are read one by one. -/
theorem read_lines (hf : LineReading f newline) (ls : List (List Char)) (a : List Char) :
    f (a ++ lines ['\r', '\n'] ls) = f a ++ lines newline (ls.map f) := by
  induction ls generalizing a with
  | nil => simp [lines]
  | cons l ls ih =>
    have hsplit : a ++ lines ['\r', '\n'] (l :: ls) =
        a ++ (['\r', '\n'] ++ (l ++ lines ['\r', '\n'] ls)) := by
      simp [lines]
    have hbefore : Parted a (['\r', '\n'] ++ (l ++ lines ['\r', '\n'] ls)) := fun _ => by simp
    have hafter : Parted ['\r', '\n'] (l ++ lines ['\r', '\n'] ls) := fun h => by simp at h
    rw [hsplit, hf.append hbefore, hf.append hafter, hf.lineEnd, ih]
    simp [lines]

end LineReading

end Localization
