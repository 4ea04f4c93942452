import Localization.CommandLine.Invocation
import Localization.File.Naming
import Localization.Program.Workspace
import Localization.Pseudo
import Localization.Script.Harvest

/-! What each command does. A command ends with a report. -/

namespace Localization.Commands

def source : String := "l10ndev.cli"

/-- The name of the file that extracted messages are written to. -/
def bundleFile : Text := .ofString "bundle.l10n.json"

/-- A report, and what has been done in a sentence. -/
def report (fields : List (String × Json)) (summary : Text) : Json :=
  .object ((Text.ofString "status", .string (.ofString "ok")) ::
    fields.map (fun (k, v) => (Text.ofString k, v)) ++ [(Text.ofString "summary", .string summary)])

def count (n : Nat) : Json := .integer n

def texts (ts : List Text) : Json := .array (ts.map .string)

def sentence (parts : List Text) : Text := parts.flatten

def number (n : Nat) : Text := .ofString (toString n)

/-- The notice of how many files there are, and what follows. -/
def foundNotice (n : Nat) (said : String) : Notice :=
  ⟨.info, source, .ofString ("Found " ++ toString n ++ said)⟩

/-! ### Extraction -/

def readScript (place : Place) : Task Script.Source := do
  let p := Path.ofPlace place
  let text ← Task.readText p
  return { suffix := (Path.suffix p.name).toChars?.getD [], text, path := p.toText.toChars? }

def harvestFailure : Script.HarvestError → Failure
  | .unsupported e => .unsupported e
  | .fault _ f => .call f.cause

/-- The report of an extraction. -/
def extractReport (files strings : Nat) (output : Option Text) (summary : Text) : Json :=
  report [("files", count files), ("strings", count strings),
    ("output", (output.map Json.string).getD .null)] summary

/-- Collects the messages of scripts, and writes them to the folder of the bundles. -/
def extract (s : Surroundings) (paths : List Text) (outDir : Option Text) (literals : Bool) :
    Task Json := do
  let found ← Task.find s .script paths
  if found.isEmpty then
    return extractReport 0 0 none (.ofString "No TypeScript/JavaScript files found.")
  Task.say [foundNotice found.length " TypeScript/JavaScript files. Extracting strings..."]
  let scripts ← found.mapM readScript
  let (harvested, notices) := Script.harvest { literals } scripts
  Task.say notices
  let bundle ← Task.ofExcept harvestFailure harvested
  let (files, strings) := (found.length, bundle.length)
  if bundle.isEmpty then
    return extractReport files 0 none (sentence ["No strings found in ", number files,
      " files. Skipping writing to a ", bundleFile, "."])
  let (folder, notices) :=
    Manifest.exportFolder (← getThe Workspace).tree [] (.ofPlace s.working) outDir
  Task.say notices
  match ← Task.ofExcept .manifest folder with
  | none =>
    return extractReport files strings none (sentence ["Extracted ", number strings,
      " strings but no package.json was found and no --outDir was given, so nothing was written."])
  | some folder =>
    let output := Path.ofPlace (folder ++ [bundleFile])
    Task.writeData output (.object bundle)
    return extractReport files strings (some output.toText) (sentence ["Extracted ", number strings,
      " strings from ", number files, " files to ", output.toText, "."])

/-! ### Exchange documents -/

/-- The bundle in a file, under its name. -/
def readNamed (place : Place) : Task (Text × Bundle) := do
  let p := Path.ofPlace place
  match Naming.bundleName? p with
  | none => throw (.notBundle p)
  | some name => return (name, ← Task.readBundle p)

/-- The place of a file or folder that is named on the command line. -/
def resolve (s : Surroundings) (written : Text) : Task Place :=
  Task.ofExcept .name (Place.resolve s.working (Path.ofText written))

/-- The text of the exchange document of bundles. -/
def exchangeText (language : Text) (bundles : Fields Bundle) : Task Text := do
  let document ← Task.ofExcept .shape (Xliff.Document.ofBundles language bundles)
  match document.render? with
  | some t => return t
  | none => throw .emptyUnit

/-- Writes bundles as one exchange document. Of bundles with one name the last one counts. -/
def writeExchange (s : Surroundings) (paths : List Text) (outFile language : Text) : Task Json := do
  let found ← Task.find s .bundle paths
  let bundles := Fields.ofList (← found.mapM readNamed)
  if bundles.isEmpty then
    return report [("bundles", .array []), ("output", .null)]
      (.ofString "No L10N JSON files found so skipping generating XLF.")
  Task.say [foundNotice bundles.length " L10N JSON files. Generating XLF..."]
  let t ← exchangeText language bundles
  let output := Path.ofPlace (← resolve s outFile)
  Task.writeText output t
  return report
    [("bundles", texts (bundles.keys.mergeSort Text.leByCodePoint)),
      ("output", .string output.toText)]
    (sentence ["Wrote XLF file with ", number bundles.length, " bundles to ", output.toText, "."])

/-- The files of the exchange document at a place. -/
def readDocument (place : Place) : Task (List Xliff.LocalizedFile) := do
  let (files, notices) := Xliff.importDocument (← Task.readText (.ofPlace place))
  Task.say notices
  Task.ofExcept .exchange files

def translatedData (b : Fields Text) : Json := .object (b.map fun (k, v) => (k, .string v))

/-- Writes the translated messages of one file to a folder. -/
def writeLocalized (folder : Place) (f : Xliff.LocalizedFile) : Task Path := do
  let output := Path.ofPlace folder ++ Path.ofText (Naming.translatedName f.name f.language)
  Task.writeData output (translatedData f.messages)
  return output

/-- Writes the translated files in exchange documents as bundles. All documents are read before the
first bundle is written. -/
def readExchange (s : Surroundings) (paths : List Text) (outDir : Text) : Task Json := do
  let found ← Task.find s .exchange paths
  if found.isEmpty then
    return report [("outputs", .array [])] (.ofString "No XLF files found.")
  let files := (← found.mapM readDocument).flatten
  let folder ← resolve s outDir
  let outputs ← files.mapM (writeLocalized folder)
  return report [("outputs", texts (outputs.map Path.toText))]
    (sentence ["Wrote ", number outputs.length, " localized L10N JSON files to ",
      (Path.ofPlace folder).toText, "."])

/-! ### Other languages -/

/-- Writes the bundle in a file once it is translated. -/
def writeTranslated (bundle : Path) (language : Text) (b : Fields Text) : Task Path := do
  match Naming.translatedPath? bundle language with
  | none => throw (.notBundle bundle)
  | some output =>
    Task.writeData output (translatedData b)
    return output

/-- Translates bundles one after another, and writes each of them in all languages once it is
translated. -/
def translateEach (languages : List Text) (translate : Bundle → Task (List (Fields Text)))
    (found : List Place) : Task (List Path) := do
  let outputs ← found.mapM fun place => do
    let p := Path.ofPlace place
    let translated ← translate (← Task.readBundle p)
    (languages.zip translated).mapM fun (language, b) => writeTranslated p language b
  return outputs.flatten

/-- The line about the files that were written. -/
def writtenSummary (found : Bool) (outputs : List Path) : Text :=
  if found then sentence ["Wrote ", number outputs.length, " L10N JSON files."]
  else .ofString "No L10N JSON files."

def pseudo (s : Surroundings) (paths : List Text) (language : Text) : Task Json := do
  let found ← Task.find s .bundle paths
  let localize (b : Bundle) : Task (List (Fields Text)) :=
    Task.ofExcept .shape ((Pseudo.bundle b).map fun b => [b])
  let outputs ← translateEach [language] localize found
  return report [("language", .string language), ("outputs", texts (outputs.map Path.toText))]
    (writtenSummary (!outputs.isEmpty) outputs)

/-- What is reported once a provider has translated bundles. -/
def providerReport (b : Provider.Backend) (languages : List Text) (found : Bool)
    (outputs : List Path) : Json :=
  report [("translator", .string (.ofString b.name)), ("languages", texts languages),
    ("outputs", texts (outputs.map Path.toText))] (writtenSummary found outputs)

/-- Translates bundles by the service that takes requests of many texts. -/
def azure (s : Surroundings) (paths languages : List Text) : Task Json := do
  let settings ← Task.ofExcept .settings (AzureSettings.ofEnvironment s.environment)
  let found ← Task.find s .bundle paths
  let translate (b : Bundle) : Task (List (Fields Text)) :=
    Task.sendAzure (Provider.Azure.translate s.azure settings {} b languages s.means)
  let outputs ← translateEach languages translate found
  return providerReport .azure languages (!found.isEmpty) outputs

/-- Translates bundles by the service that takes single documents. -/
def aws (s : Surroundings) (paths languages : List Text) (settings : AwsSettings) : Task Json := do
  let settings ← Task.ofExcept .settings settings.checked
  Task.say [⟨.debug, source, .ofString "AWS config: " ++ settings.toJson.shown⟩]
  let found ← Task.find s .bundle paths
  let translate (b : Bundle) : Task (List (Fields Text)) :=
    let (run, sessions) := Provider.Aws.translate s.aws settings (some s.environment) b languages
        s.means
    Task.sendAws run sessions
  let outputs ← translateEach languages translate found
  return providerReport .aws languages (!found.isEmpty) outputs

def translators : Json :=
  let known := Provider.Registry.standard
  report [("translators", .array (known.map fun (name, _, description) =>
      .object [("name", .string name), ("description", .string description)]))]
    (sentence [number known.length, " translators available: ",
      Text.join (.ofString ", ") known.keys])

def run (s : Surroundings) : CommandLine.Command → Task Json
  | .extract paths outDir literals => extract s paths outDir literals
  | .writeExchange paths outFile language => writeExchange s paths outFile language
  | .readExchange paths outDir => readExchange s paths outDir
  | .pseudo paths language => pseudo s paths language
  | .azure paths languages => azure s paths languages
  | .aws paths languages settings => aws s paths languages settings
  | .translators => return translators

end Localization.Commands
