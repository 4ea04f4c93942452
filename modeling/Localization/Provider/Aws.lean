import Localization.Provider.Message
import Localization.Provider.Settings

/-! The provider that takes single documents. The languages come one after another; all
documents of a language are sent, and the first one that fails decides. -/

namespace Localization.Provider.Aws

structure Request where
  source : Text
  target : Text
  html : List Char
  settings : List (String × Text)
  deriving DecidableEq, Repr

def contentType : String := "text/html"

/-- Why a service does not translate a document. -/
inductive Refusal where
  | code (name said : Text)
  | unreachable (endpoint : Text)
  deriving DecidableEq, Repr

def Refusal.message : Refusal → Text
  | .code name said =>
    .ofString "An error occurred (" ++ name ++
      .ofString ") when calling the TranslateDocument operation: " ++ said
  | .unreachable endpoint =>
    .ofString "Could not connect to the endpoint URL: \"" ++ endpoint ++ .ofString "\""

/-- What the service does with a request. -/
abbrev Service := Request → Except Refusal (List Char)

/-- How a session with the service is opened. -/
structure Session where
  /-- The profile with the keys. None is named if the environment has keys. -/
  profile : Option Text
  region : Text
  attempts : Int
  deriving DecidableEq, Repr

def source : String := "l10ndev.translators.aws"

/-- The session of a run, by keys of the environment or by a profile. -/
def Session.open? (s : AwsSettings) (env : Environment) : Except Fault (Session × List Notice) :=
  if s.maxAttempts < 0 then .error .attempts
  else if AwsSettings.hasKeys env then
    .ok ({ profile := none, region := s.region, attempts := s.maxAttempts }, [])
  else
    let profile := s.profile.filter (!·.isEmpty)
    let said :=
      .ofString "Using AWS profile '" ++ profile.getD (.ofString "default") ++ .ofString "'"
    .ok ({ profile, region := s.region, attempts := s.maxAttempts },
      [{ level := .debug, source, text := said }])

/-- The request for an entry, if it can be sent. -/
def requestOf (s : AwsSettings) (language : Text) (e : Entry) : Option Request :=
  if e.isSendable then
    some { source := s.sourceLanguage, target := language, html := e.html,
           settings := s.documentSettings }
  else none

/-- What comes of an entry in a language. -/
def translateEntry (convert : Converter) (service : Service) (s : AwsSettings) (language : Text)
    (e : Entry) : Except Fault Translated :=
  match requestOf s language e with
  | none => .error .unsendable
  | some request => match service request with
    | .error refusal => .error (.refused refusal.message)
    | .ok html =>
      ((convert (.ofChars html)).mapError .rejected).map fun text => ⟨e, language, text⟩

/-- What comes of each entry in a language, where `reply` answers the request for the entry at a
place. -/
def outcomes (convert : Converter) (reply : Nat → Service) (s : AwsSettings) (language : Text)
    (entries : List Entry) : List (Except Fault Translated) :=
  entries.mapIdx fun i e => translateEntry convert (reply i) s language e

/-- Translates entries into languages, where `reply` answers the request in the language at the
first place for the entry at the second one. -/
def translateEntries (convert : Converter) (reply : Nat → Nat → Service) (s : AwsSettings)
    (entries : List Entry) : (languages : List Text) → Run Request
  | [] => { result := .ok [] }
  | language :: rest =>
    let requests := entries.filterMap (requestOf s language)
    let first : Notice :=
      { level := .debug, source, text := .ofString "Submitting translation for " ++ language }
    match (outcomes convert (reply 0) s language entries).mapM id with
    | .error fault => { requests, notices := [first], result := .error fault }
    | .ok done =>
      let more := translateEntries convert (fun n => reply (n + 1)) s entries rest
      { requests := requests ++ more.requests
        notices := first :: done.flatMap (Translated.notices .aws) ++ more.notices
        result := more.result.map fun bundles =>
          Fields.ofList (done.map fun t => (t.entry.key, t.text)) :: bundles }

/-- Translates a bundle into languages, with a session opened first if `env` is given. The requests
are answered by `reply`, each by its places. -/
def translateBy (reply : Nat → Nat → Service) (s : AwsSettings) (env : Option Environment)
    (bundle : Bundle) (languages : List Text) (m : Means := {}) : Run Request × List Session :=
  if bundle.isEmpty || languages.isEmpty then ({ result := .ok (languages.map fun _ => []) }, [])
  else match env.mapM (Session.open? s) with
  | .error fault => ({ result := .error fault }, [])
  | .ok opened =>
    let sessions := (opened.map Prod.fst).toList
    let notices := (opened.map Prod.snd).getD []
    match Entry.ofBundle bundle with
    | .error e => ({ notices, result := .error (.shape e) }, sessions)
    | .ok entries =>
      if s.maxConcurrency < 0 then ({ notices, result := .error .concurrency }, sessions)
      else
        let run := translateEntries m.convert reply s entries languages
        ({ run with notices := notices ++ run.notices }, sessions)

/-- Translates a bundle into languages by a service. -/
def translate (service : Service) (s : AwsSettings) (env : Option Environment) (bundle : Bundle)
    (languages : List Text) (m : Means := {}) : Run Request × List Session :=
  translateBy (fun _ _ => service) s env bundle languages m

end Localization.Provider.Aws
