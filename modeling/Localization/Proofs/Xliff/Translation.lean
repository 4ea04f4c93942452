import Localization.Proofs.Bundle
import Localization.Proofs.Lines
import Localization.Proofs.Xliff.Entity
import Localization.Xliff.Translation

/-! What a translator adds to a document. Without additions the document is the one that was
rendered. -/

namespace Localization.Xliff

open Xml

section Placed

variable {α β : Type} {n : Nat}

theorem placed_perm (n : Nat) (x : α) (xs : List α) : (placed n x xs).Perm (x :: xs) := by
  rw [placed]
  refine List.perm_middle.trans ?_
  rw [List.take_append_drop]

theorem map_placed (g : α → β) (x : α) (xs : List α) :
    (placed n x xs).map g = placed n (g x) (xs.map g) := by
  simp [placed, List.map_take, List.map_drop]

theorem forall₂_placed {R : α → β → Prop} {x : α} {y : β} {xs : List α} {ys : List β} (h : R x y)
    (hs : List.Forall₂ R xs ys) : List.Forall₂ R (placed n x xs) (placed n y ys) :=
  List.rel_append (List.forall₂_take n hs) (.cons h (List.forall₂_drop n hs))

theorem filter_placed_of_neg {p : α → Bool} {x : α} (xs : List α) (h : p x = false) :
    (placed n x xs).filter p = xs.filter p := by
  rw [placed, List.filter_append, List.filter_cons_of_neg (by simp [h]), ← List.filter_append,
    List.take_append_drop]

theorem filter_placed {p : α → Bool} {x : α} {xs : List α} (h : p x = true)
    (hs : ∀ y ∈ xs, p y = false) : (placed n x xs).filter p = [x] := by
  have htake : (xs.take n).filter p = [] :=
    List.filter_eq_nil_iff.mpr fun y hy => by simp [hs y (List.mem_of_mem_take hy)]
  have hdrop : (xs.drop n).filter p = [] :=
    List.filter_eq_nil_iff.mpr fun y hy => by simp [hs y (List.mem_of_mem_drop hy)]
  rw [placed, List.filter_append, List.filter_cons_of_pos h, htake, hdrop, List.nil_append]

/-- What becomes of a modified element, if modifying and mapping commute. -/
theorem map_modify {g : α → β} {h : α → α} (h' : β → β) {xs : List α}
    (hx : ∀ x ∈ xs, g (h x) = h' (g x)) (n : Nat) :
    (xs.modify n h).map g = (xs.map g).modify n h' := by
  induction xs generalizing n with
  | nil => simp
  | cons x xs ih =>
    cases n with
    | zero => simp [hx x (by simp)]
    | succ n => simp [ih (fun y hy => hx y (List.mem_cons_of_mem _ hy)) n]

/-- Lines of which one is continued: what continues it stands between those before and those
after. -/
theorem lines_modify (newline more : List Char) {k : Nat} {between : List (List Char)}
    (hk : k ≤ between.length) (first last : List Char) :
    LineReading.lines newline ((first :: (between ++ [last])).modify k (· ++ more)) =
      newline ++ first ++ (placed k more (between.map (newline ++ ·))).flatten ++ newline ++
        last := by
  induction k generalizing first between with
  | zero => simp [LineReading.lines, placed, List.flatMap_def]
  | succ k ih =>
    obtain ⟨second, between, rfl⟩ := List.exists_cons_of_length_pos (by omega : 0 < between.length)
    have hrest := ih (by simpa using hk) second
    rw [List.modify_succ_cons, List.cons_append, LineReading.lines, List.flatMap_cons,
      ← LineReading.lines, hrest]
    simp [placed]

end Placed

namespace Document

theorem translated?_nothing (d : Document) :
    d.translated? ⟨fun _ => none, fun _ _ => none⟩ = d.render? := by
  have hinto : Addition.into none = id := rfl
  have hfile : ∀ source name units, translatedLines? ⟨fun _ => none, fun _ _ => none⟩ source name
      units = fileLines? source name units := by
    intro source name units
    have hline : Text.ofString "  <file" ++ (attributesOf source name).flatten ++
        Text.ofString "><body>" = Text.ofString "  <file original=\"" ++ name ++
          Text.ofString "\" source-language=\"" ++ source ++
          Text.ofString "\" datatype=\"plaintext\"><body>" := by
      simp [attributesOf, Text.ofString]
    simp only [translatedLines?, fileLines?, hinto, Option.map_id_fun, id_eq, Addition.among, hline]
  simp only [translated?, render?, hfile]

end Document

/-! What additions say. -/

/-- What an attribute value stands for; nothing if the characters are no value, or an empty one. -/
def valueOf? (raw : List Char) : Option (List Char) :=
  match scanValue '"' (raw ++ ['"']), attributeValue {} false 0 raw with
  | .ok (taken, []), .ok (c :: cs) => if taken = raw then some (c :: cs) else none
  | _, _ => none

/-- The text of a target with blanks before it; nothing if the characters are no target, or an empty
one. -/
def targetOf? (cs : List Char) : Option (List Char) :=
  match Content.element {} (cs.dropWhile isBlank) with
  | .ok (e, []) =>
    if e.name = "target".toList && !e.chars.isEmpty then some e.chars else none
  | _ => none

namespace Translation

variable (t : Translation) (f : List Char → List Char)

def language? (name : Text) : Option (List Char) :=
  (t.language name).bind fun a => valueOf? (f a.chars)

/-- The text of the target of a key, read with `f`. -/
def target? (name key : Text) : Option (List Char) :=
  (t.target name (Entity.encode key)).bind fun a => targetOf? (f a.chars)

def message (name key : Text) : Text := Entity.decode (.ofChars ((t.target? f name key).getD []))

/-- Every bundle has a language, and every one of its entries a target. -/
def Covers (bundles : Fields Bundle) : Prop :=
  ∀ b ∈ bundles, (t.language? f b.1).isSome ∧ ∀ e ∈ b.2, (t.target? f b.1 e.1).isSome

/-- A file that is read has the name of a bundle and the language added for it, and its keys are
those of the bundle in order, each with the message that it is translated to. -/
structure Returns (b : Text × Bundle) (file : LocalizedFile) : Prop where
  name : file.name = b.1
  language : ∃ cs, t.language? f b.1 = some cs ∧ file.language = Text.lower (.ofChars cs)
  messages : file.messages.Perm (b.2.map fun e => (e.1, t.message f b.1 e.1))
  ordered : file.messages.Pairwise fun a b => Text.le16 a.1 b.1 = true

end Translation

/-- A message as a document can carry it: its text is not empty and legal, and its comments are
legal lines that are not empty. -/
structure Portable (text : List Char) (comments : List (List Char)) : Prop where
  nonempty : text ≠ []
  legal : ∀ c ∈ text, isLegal c = true
  comments : ∀ cs ∈ comments, cs ≠ [] ∧ ∀ c ∈ cs, isLegal c = true ∧ c ≠ '\r' ∧ c ≠ '\n'

/-- An entry of a bundle as a document can carry it: it obeys the key rule. -/
def Carried (e : Text × Json) : Prop := ∃ (text : List Char) (comments : List (List Char)),
  Bundle.message? e.2 = some ⟨.ofChars text, comments.map .ofChars⟩ ∧
  e.1 = Message.key ⟨.ofChars text, comments.map .ofChars⟩ ∧ Portable text comments

/-- A bundle as a document can carry it, under a name that is not empty and needs no escape: a map
of one or more entries. -/
structure CarriedBundle (b : Text × Bundle) : Prop where
  named : ∃ name, b.1 = Text.ofChars name ∧ name ≠ [] ∧ Attribute.IsVerbatim name
  nonempty : b.2 ≠ []
  distinct : (Fields.keys b.2).Nodup
  carried : ∀ e ∈ b.2, Carried e

end Localization.Xliff
