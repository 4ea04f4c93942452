import Localization.Json

/-! Settings of providers. Credentials come from variables of the environment. -/

namespace Localization

abbrev Environment := Fields Text

/-- Why settings cannot be used. -/
inductive SettingsError where
  | missingVariable (name : String)
  | formality (given : Text)
  | profanity (given : Text)
  deriving DecidableEq, Repr

def SettingsError.message : SettingsError → Text
  | .missingVariable name => .ofString (name ++ " environment variable is not defined.")
  | .formality given =>
    .ofString "Invalid formality: " ++ given ++ .ofString ". Expected FORMAL or INFORMAL"
  | .profanity given =>
    .ofString "Invalid profanity setting: " ++ given ++ .ofString ". Expected MASK"

/-- The language that messages are written in if nothing else is said. -/
def defaultSourceLanguage : Text := .ofString "en"

/-- The language of pseudo-localized messages if nothing else is said. -/
def defaultPseudoLanguage : Text := .ofString "qps-ploc"

/-- The languages that messages are translated into if nothing else is said. -/
def defaultLanguages : List Text :=
  ["fr", "it", "de", "es", "ru", "zh-cn", "zh-tw", "ja", "ko", "cs", "pt-br", "tr", "pl"]

/-- Settings of the service that takes requests of many texts. -/
structure AzureSettings where
  key : Text
  region : Text
  sourceLanguage : Text := defaultSourceLanguage
  endpoint : Text := .ofString "https://api.cognitive.microsofttranslator.com"
  maxConcurrency : Int := 8
  timeout : Text := .ofString "60.0"
  deriving DecidableEq, Repr

namespace AzureSettings

def keyVariable : String := "AZURE_TRANSLATOR_KEY"
def regionVariable : String := "AZURE_TRANSLATOR_REGION"

/-- The value of a variable, which must be set and not empty. -/
def required (env : Environment) (name : String) : Except SettingsError Text :=
  match env.get? (.ofString name) with
  | some (c :: cs) => .ok (c :: cs)
  | _ => .error (.missingVariable name)

/-- The settings of Azure Translator that an environment gives. -/
def ofEnvironment (env : Environment) : Except SettingsError AzureSettings := do
  let key ← required env keyVariable
  let region ← required env regionVariable
  return { key, region }

/-- Settings as a value that does not tell the key. -/
def toJson (s : AzureSettings) : Json :=
  .object [("key", .string (.ofString "***")), ("region", .string s.region),
    ("source_language", .string s.sourceLanguage), ("endpoint", .string s.endpoint),
    ("max_concurrency", .integer s.maxConcurrency), ("timeout", .string s.timeout)]

/-- The address that requests go to. -/
def url (s : AzureSettings) : Text :=
  (s.endpoint.reverse.dropWhile (CodePoint.isChar '/')).reverse ++ .ofString "/translate"

end AzureSettings

/-- Settings of the service that takes single documents. -/
structure AwsSettings where
  region : Text := .ofString "us-west-2"
  sourceLanguage : Text := defaultSourceLanguage
  formality : Option Text := some (.ofString "FORMAL")
  profanity : Option Text := some (.ofString "MASK")
  /-- The profile that is used if the environment has no keys. -/
  profile : Option Text := none
  maxConcurrency : Int := 8
  maxAttempts : Int := 50
  deriving DecidableEq, Repr

namespace AwsSettings

def accessKeyVariable : String := "AWS_ACCESS_KEY_ID"
def secretKeyVariable : String := "AWS_SECRET_ACCESS_KEY"

/-- The settings, if their values are ones that the service knows. -/
def checked (s : AwsSettings) : Except SettingsError AwsSettings :=
  let known (names : List String) : Option Text → Bool
    | some t => (names.map Text.ofString).contains t
    | none => true
  if !known ["FORMAL", "INFORMAL"] s.formality then .error (.formality (s.formality.getD []))
  else if !known ["MASK"] s.profanity then .error (.profanity (s.profanity.getD []))
  else .ok s

/-- Whether the environment has keys, even if they are empty. -/
def hasKeys (env : Environment) : Bool :=
  (env.get? (.ofString accessKeyVariable)).isSome && (env.get? (.ofString secretKeyVariable)).isSome

def toJson (s : AwsSettings) : Json :=
  let orNull (t : Option Text) : Json := (t.map Json.string).getD .null
  .object [("region", .string s.region), ("source_language", .string s.sourceLanguage),
    ("formality", orNull s.formality), ("profanity", orNull s.profanity),
    ("profile", orNull s.profile), ("max_concurrency", .integer s.maxConcurrency),
    ("max_attempts", .integer s.maxAttempts)]

/-- The settings that a document is sent with. -/
def documentSettings (s : AwsSettings) : List (String × Text) :=
  let entry (name : String) : Option Text → List (String × Text)
    | some (c :: cs) => [(name, c :: cs)]
    | _ => []
  entry "Formality" s.formality ++ entry "Profanity" s.profanity

end AwsSettings

end Localization
