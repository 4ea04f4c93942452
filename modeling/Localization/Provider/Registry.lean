import Localization.Json
import Localization.Text.Case

/-! The known providers of target texts under their names, in which case does not matter. -/

namespace Localization.Provider

inductive Backend where
  | pseudo
  | azure
  | aws
  deriving DecidableEq, Repr

namespace Backend

/-- The name that stands in notices and on the command line. -/
def name : Backend → String
  | .pseudo => "pseudo"
  | .azure => "azure"
  | .aws => "aws"

def description : Backend → String
  | .pseudo => "Accented pseudo-localization (offline)"
  | .azure => "Azure Translator (AZURE_TRANSLATOR_KEY, AZURE_TRANSLATOR_REGION)"
  | .aws => "Amazon Translate (environment credentials or SSO profile)"

end Backend

/-- Providers with descriptions, in the order of registration. -/
abbrev Registry := Fields (Backend × Text)

/-- A name that is not registered, and the names that are. -/
structure UnknownBackend where
  name : Text
  known : List Text

def UnknownBackend.message (e : UnknownBackend) : Text :=
  .ofString "Unknown translator: " ++ e.name ++ .ofString ". Available: " ++
    Text.join (.ofString ", ") e.known

namespace Registry

/-- Registers a way under a name, in place of what the name stood for. -/
def register (r : Registry) (name : Text) (b : Backend) (description : Text) : Registry :=
  r.put name.lower (b, description)

def find (r : Registry) (name : Text) : Except UnknownBackend Backend :=
  match r.get? name.lower with
  | some (b, _) => .ok b
  | none => .error ⟨name, r.keys⟩

/-- The translators that can be named without registering any. -/
def standard : Registry :=
  [Backend.pseudo, .azure, .aws].foldl
    (fun r b => r.register (.ofString b.name) b (.ofString b.description)) []

end Registry

end Localization.Provider
