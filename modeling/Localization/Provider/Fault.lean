import Localization.Batch
import Localization.Bundle
import Localization.Json.Reader

/-! Why a provider fails. -/

namespace Localization.Provider

/-- Why hypertext is not converted: the kind under which the converter fails, and what it says. It
knows nothing of translations, so that it does not fail as a translation does that is refused. -/
structure Rejection where
  kind : String
  said : Text
  foreign : kind ≠ "TranslationError"
  deriving DecidableEq, Repr

/-- Why there is no translation. -/
inductive Fault where
  /-- A value of a bundle, or an answer of a service, has the wrong shape. -/
  | shape (e : ShapeError)
  | tooLarge (item : Item)
  | refused (reason : Text)
  /-- A service answered for too few or too many items of a batch. -/
  | miscounted (expected batch got : Nat)
  /-- The body of an answer holds no value. -/
  | unreadable (f : Json.DataFault)
  /-- The hypertext of a translation is not converted. -/
  | rejected (r : Rejection)
  /-- A text or a credential that cannot be sent. -/
  | unsendable
  /-- An address to which nothing can be sent. -/
  | address
  | concurrency
  | attempts
  deriving DecidableEq, Repr

namespace Fault

/-- What is said of a fault, if it is not known by its kind alone. -/
def message? : Fault → Option Text
  | .tooLarge item => some (Batch.tooLargeMessage item)
  | .refused reason => some (.ofString "Failed to translate: " ++ reason)
  | .miscounted expected batch got => some (.ofString
      ("Failed to translate: expected " ++ toString expected ++ " results for batch " ++
        toString batch ++ ", got " ++ toString got))
  | .concurrency => some (.ofString "Semaphore initial value must be >= 0")
  | .unreadable (.content c) => if c.isPlaced then none else some (.ofString c.message)
  | .rejected r => some r.said
  | .shape (.missingField name) => some (.ofString ("'" ++ name ++ "'"))
  | _ => none

end Fault

end Localization.Provider
