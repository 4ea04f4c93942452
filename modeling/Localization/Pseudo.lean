import Localization.Bundle
import Localization.Placeholder

/-! Pseudo-localization: every ASCII letter becomes an accented one that looks alike, and some
vowels become two, so that text which is not translated or has too little room shows. Placeholders
stay. -/

namespace Localization.Pseudo

/-- The letter that stands for an ASCII letter. -/
def accented? : Char → Option Char
  | 'a' => some 'ȧ' | 'A' => some 'Ȧ' | 'b' => some 'ƀ' | 'B' => some 'Ɓ' | 'c' => some 'ƈ'
  | 'C' => some 'Ƈ' | 'd' => some 'ḓ' | 'D' => some 'Ḓ' | 'e' => some 'ḗ' | 'E' => some 'Ḗ'
  | 'f' => some 'ƒ' | 'F' => some 'Ƒ' | 'g' => some 'ɠ' | 'G' => some 'Ɠ' | 'h' => some 'ħ'
  | 'H' => some 'Ħ' | 'i' => some 'ī' | 'I' => some 'Ī' | 'j' => some 'ĵ' | 'J' => some 'Ĵ'
  | 'k' => some 'ķ' | 'K' => some 'Ķ' | 'l' => some 'ŀ' | 'L' => some 'Ŀ' | 'm' => some 'ḿ'
  | 'M' => some 'Ḿ' | 'n' => some 'ƞ' | 'N' => some 'Ƞ' | 'o' => some 'ǿ' | 'O' => some 'Ǿ'
  | 'p' => some 'ƥ' | 'P' => some 'Ƥ' | 'q' => some 'ɋ' | 'Q' => some 'Ɋ' | 'r' => some 'ř'
  | 'R' => some 'Ř' | 's' => some 'ş' | 'S' => some 'Ş' | 't' => some 'ŧ' | 'T' => some 'Ŧ'
  | 'u' => some 'ŭ' | 'U' => some 'Ŭ' | 'v' => some 'ṽ' | 'V' => some 'Ṽ' | 'w' => some 'ẇ'
  | 'W' => some 'Ẇ' | 'x' => some 'ẋ' | 'X' => some 'Ẋ' | 'y' => some 'ẏ' | 'Y' => some 'Ẏ'
  | 'z' => some 'ẑ' | 'Z' => some 'Ẑ'
  | _ => none

/-- Whether a letter is doubled, which makes text about a third longer. -/
def isDoubled (c : Char) : Bool := "aeouAEOU".toList.contains c

def mapped : CodePoint → Text
  | .char c =>
    match accented? c with
    | some d => if isDoubled c then [.char d, .char d] else [.char d]
    | none => [.char c]
  | p => [p]

def text (t : Text) : Text := t.flatMap mapped

/-- A message with the letters outside of its placeholders replaced. -/
def message (t : Text) : Text :=
  (Placeholder.pieces t).flatMap fun
    | .gap g => text g
    | .placeholder p => p

def bundle (b : Bundle) : Except ShapeError (Fields Text) :=
  b.mapM fun (k, v) => (Bundle.textOf v).map fun t => (k, message t)

def translate (b : Bundle) (languages : List Text) : Except ShapeError (List (Fields Text)) :=
  (bundle b).map fun localized => languages.map fun _ => localized

end Localization.Pseudo
