import Localization.Text

/-! The order of texts by their UTF-16 code units: a proper beginning comes first, else the first
difference decides. -/

namespace Localization

/-- Whether a list comes no later than another in the order of a dictionary. -/
def dictionaryLe : List Nat → List Nat → Bool
  | [], _ => true
  | _ :: _, [] => false
  | a :: as, b :: bs => a < b || a == b && dictionaryLe as bs

namespace Text

/-- Whether a text comes no later than another by UTF-16 code units. -/
def le16 (a b : Text) : Bool := dictionaryLe a.units16 b.units16

/-- Whether a text comes no later than another by code points. -/
def leByCodePoint (a b : Text) : Bool :=
  dictionaryLe (a.map CodePoint.toNat) (b.map CodePoint.toNat)

/-- Items in the order of their texts. Items with equal texts keep their order. -/
def sortBy16 {α : Type} (text : α → Text) (xs : List α) : List α :=
  xs.mergeSort fun a b => le16 (text a) (text b)

end Text

end Localization
