import Localization.Proofs.Xml.CharData
import Localization.Xml.Document

/-! Documents with a declaration, one element and nothing else. -/

namespace Localization.Xml

def IsLineEnd (newline : List Char) : Prop := newline = ['\r', '\n'] ∨ newline = ['\n']

def declaration : List Char := "<?xml version=\"1.0\" encoding=\"utf-8\"?>".toList

theorem scan_declaration (rest : List Char) : Lexeme.scan (declaration ++ rest) =
    .ok (.xmlDeclaration " version=\"1.0\" encoding=\"utf-8\"".toList, rest) := by
  have hscan : scanInstruction (declaration.drop 2) = .ok (true, []) := by decide +kernel
  have hrest := scanInstruction_local hscan rest
  have hsplit : declaration ++ rest = '<' :: '?' :: (declaration.drop 2 ++ rest) := rfl
  have hlen : (declaration.drop 2 ++ rest).length - rest.length - 5 = 31 := by
    rw [List.length_append, Nat.add_sub_cancel]
    rfl
  rw [hsplit, Lexeme.scan, hrest]
  simp only [Except.map, List.nil_append, if_true, hlen]
  rfl

theorem scan_newline {newline : List Char} (hnewline : IsLineEnd newline) (rest : List Char) :
    Lexeme.scan (newline ++ '<' :: rest) = .ok (.blanks, '<' :: rest) := by
  rcases hnewline with rfl | rfl <;> rfl

theorem scan_element {c : Char} (hc : isNameStart c = true) (rest : List Char) :
    Lexeme.scan ('<' :: c :: rest) = .ok (.element, '<' :: c :: rest) := by
  have hbang : c ≠ '!' := by rintro rfl; revert hc; decide
  have hmark : c ≠ '?' := by rintro rfl; revert hc; decide
  rw [Lexeme.scan, hc, Bool.true_or, if_pos rfl]
  all_goals simp [hbang, hmark]

theorem prolog_read {newline : List Char} (hnewline : IsLineEnd newline) {c : Char}
    (hc : isNameStart c = true) (rest : List Char) :
    Prolog.read (declaration ++ (newline ++ '<' :: c :: rest)) = .ok ({}, '<' :: c :: rest) := by
  have hlines : 0 < newline.length := by rcases hnewline with rfl | rfl <;> decide
  obtain ⟨fuel, hfuel⟩ : ∃ fuel,
      (declaration ++ (newline ++ '<' :: c :: rest)).length + 1 = fuel + 3 := by
    refine ⟨(declaration ++ (newline ++ '<' :: c :: rest)).length - 2, ?_⟩
    simp only [List.length_append, List.length_cons]
    omega
  have hread : Declaration.read " version=\"1.0\" encoding=\"utf-8\"".toList = .ok false := by
    decide +kernel
  have hfirst : ∀ left after, Prolog.step {} .start
      ⟨.xmlDeclaration " version=\"1.0\" encoding=\"utf-8\"".toList, left, after⟩ =
        .ok ({}, .beforeType) := by
    intro left after
    delta Prolog.step
    dsimp only
    delta Prolog.stepOutside
    simp only [hread]
  have hblanks : ∀ left after, Prolog.step {} .beforeType ⟨.blanks, left, after⟩ =
      .ok ({}, .beforeType) := fun _ _ => rfl
  have helement : ∀ left after, Prolog.step {} .beforeType ⟨.element, left, after⟩ =
      .ok ({}, .beforeType) := fun _ _ => rfl
  have hne : ∀ more, (declaration ++ more).isEmpty = false := fun more => rfl
  have hne2 : ∀ more : List Char, (newline ++ '<' :: more).isEmpty = false := by
    rcases hnewline with rfl | rfl <;> exact fun more => rfl
  rw [Prolog.read, hfuel]
  simp only [lexemes, hne, hne2, scan_declaration, scan_newline hnewline, scan_element hc,
    List.isEmpty_cons, Bool.false_eq_true, if_false, Prolog.run, hfirst, hblanks, helement]

/-- A document that is its declaration and an element. -/
theorem readDocument_eq {newline cs : List Char} (hnewline : IsLineEnd newline) {c : Char}
    (hc : isNameStart c = true) {e : Element}
    (he : Content.element {} ('<' :: c :: cs) = .ok (e, [])) :
    readDocument (declaration ++ (newline ++ '<' :: c :: cs)) = .ok e := by
  rw [readDocument, prolog_read hnewline hc]
  simp only [bind, Except.bind, he]
  rfl

end Localization.Xml
