import Localization.Json.Shown

/-! What the arguments of a program may be: options under their names, and operands, which stand
without a name. -/

namespace Localization.CommandLine

/-- How many values an option takes. -/
inductive Arity where
  | none
  | one
  | some
  deriving DecidableEq, Repr

/-- An option that is known by a key. -/
structure Rule (κ : Type) where
  key : κ
  /-- The names with their hyphens, in the order in which they are listed. -/
  names : List Text
  arity : Arity := .none
  required : Bool := false
  /-- The values that the option may have; any if there are none. -/
  choices : List Text := []
  deriving Repr

/-- What a command takes besides its options. -/
inductive Operands where
  | none
  | values (name : Text)
  | command
  deriving DecidableEq, Repr

/-- The options and operands of a program or of one of its commands. -/
structure Grammar (κ : Type) where
  /-- The name that stands before what is said of wrong arguments. -/
  program : Text
  rules : List (Rule κ)
  operands : Operands := .none

/-- The way in which the arguments of a program are wrong. -/
inductive Complaint where
  | ambiguous (written : Text) (names : List Text)
  /-- An option that takes no value was given one. -/
  | ignoredValue (names : List Text) (value : Text)
  | oneExpected (names : List Text)
  | someExpected (names : List Text)
  | badChoice (names : List Text) (value : Text) (choices : List Text)
  | missing (names : List Text)
  | unrecognized (arguments : List Text)
  deriving DecidableEq, Repr

/-- The names of an option as one text. -/
def joinedNames (names : List Text) : Text := Text.join (.ofString "/") names

private def listed (ts : List Text) : Text := Text.join (.ofString ", ") ts

def Complaint.message : Complaint → Text
  | .ambiguous written names =>
    .ofString "ambiguous option: " ++ written ++ .ofString " could match " ++ listed names
  | .ignoredValue names value =>
    about names (.ofString "ignored explicit argument " ++ Json.shownText value)
  | .oneExpected names => about names (.ofString "expected one argument")
  | .someExpected names => about names (.ofString "expected at least one argument")
  | .badChoice names value choices =>
    about names (.ofString "invalid choice: " ++ Json.shownText value ++
      .ofString " (choose from " ++ listed (choices.map Json.shownText) ++ .ofString ")")
  | .missing names => .ofString "the following arguments are required: " ++ listed names
  | .unrecognized arguments =>
    .ofString "unrecognized arguments: " ++ Text.join (.ofString " ") arguments
where
  about (names : List Text) (said : Text) : Text :=
    .ofString "argument " ++ joinedNames names ++ .ofString ": " ++ said

/-- Why arguments are not read to their end. -/
inductive Stop where
  | help
  | wrong (program : Text) (c : Complaint)
  deriving DecidableEq, Repr

end Localization.CommandLine
