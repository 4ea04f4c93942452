import Localization.CommandLine.Reading
import Localization.File.Path
import Localization.Notice
import Localization.Provider.Settings

/-! The commands of the program, and what its arguments ask for. -/

namespace Localization.CommandLine

/-- The options of the program and of its commands. -/
inductive Key where
  | help
  | verbose
  | debug
  | outDir
  | literals
  | outFile
  | language
  | languages
  | region
  | sourceLanguage
  | profile
  | formality
  | noProfanity
  deriving DecidableEq, Repr

inductive CommandName where
  | export_
  | generateXlf
  | importXlf
  | generatePseudo
  | generateAzure
  | generateAws
  | translators
  deriving DecidableEq, Repr

namespace CommandName

def written : CommandName → Text
  | .export_ => .ofString "export"
  | .generateXlf => .ofString "generate-xlf"
  | .importXlf => .ofString "import-xlf"
  | .generatePseudo => .ofString "generate-pseudo"
  | .generateAzure => .ofString "generate-azure"
  | .generateAws => .ofString "generate-aws"
  | .translators => .ofString "translators"

/-- All commands, in the order in which they are listed. -/
def all : List CommandName :=
  [.export_, .generateXlf, .importXlf, .generatePseudo, .generateAzure, .generateAws, .translators]

def ofWritten? (t : Text) : Option CommandName := all.find? fun c => c.written = t

end CommandName

/-- A command with all that its arguments settle. -/
inductive Command where
  /-- Collects the messages of scripts in a bundle. -/
  | extract (paths : List Text) (outDir : Option Text) (literals : Bool)
  | writeExchange (paths : List Text) (outFile language : Text)
  | readExchange (paths : List Text) (outDir : Text)
  | pseudo (paths : List Text) (language : Text)
  | azure (paths languages : List Text)
  | aws (paths languages : List Text) (settings : AwsSettings)
  | translators
  deriving DecidableEq, Repr

/-- What the arguments of the program ask for. -/
structure Invocation where
  level : Level
  command : Command
  deriving DecidableEq, Repr

/-- Why arguments make no command: help is asked for, or something is wrong with them. -/
inductive Refusal where
  | help
  | noCommand
  | wrong (program : Text) (c : Complaint)
  deriving DecidableEq, Repr

def programName : Text := .ofString "l10n-dev"

/-- What the program is told on how its operand is called. -/
def commandOperand : Text := .ofString "command"

private def helpRule : Rule Key := { key := .help, names := ["-h", "--help"] }

/-- The options that stand before the name of a command. -/
def programGrammar : Grammar Key :=
  { program := programName
    rules := [helpRule, { key := .verbose, names := ["--verbose", "-v"] },
      { key := .debug, names := ["--debug", "-d"] }]
    operands := .command }

private def outDirRule : Rule Key :=
  { key := .outDir, names := ["--outDir", "--out-dir", "-o"], arity := .one }

private def languageRule : Rule Key :=
  { key := .language, names := ["--language", "-l"], arity := .one }

private def languagesRule : Rule Key :=
  { key := .languages, names := ["--languages", "-l"], arity := .some }

/-- The options of a command, but for the one that asks for help. -/
def rulesOf : CommandName → List (Rule Key)
  | .export_ => [outDirRule, { key := .literals, names := ["--detect-literals"] }]
  | .generateXlf =>
    [{ key := .outFile, names := ["--outFile", "--out-file", "-o"], arity := .one,
       required := true },
      languageRule]
  | .importXlf => [outDirRule]
  | .generatePseudo => [languageRule]
  | .generateAzure => [languagesRule]
  | .generateAws =>
    [languagesRule, { key := .region, names := ["--region"], arity := .one },
      { key := .sourceLanguage, names := ["--source-language", "-s"], arity := .one },
      { key := .profile, names := ["--sso-profile"], arity := .one },
      { key := .formality, names := ["--formality"], arity := .one,
        choices := ["FORMAL", "INFORMAL"] },
      { key := .noProfanity, names := ["--no-profanity"] }]
  | .translators => []

/-- The options and operands of one command. -/
def grammarOf (c : CommandName) : Grammar Key :=
  { program := programName ++ .char ' ' :: c.written
    rules := helpRule :: rulesOf c
    operands := if c = .translators then .none else .values (.ofString "path") }

/-- The settings of Amazon Translate that the options give; what is not given stays standard. -/
def awsSettingsOf (r : Reading Key) : AwsSettings :=
  let standard : AwsSettings := {}
  { region := (r.value? .region).getD standard.region
    sourceLanguage := (r.value? .sourceLanguage).getD standard.sourceLanguage
    formality := some ((r.value? .formality).getD (.ofString "FORMAL"))
    profanity := if r.has .noProfanity then none else standard.profanity
    profile := (r.value? .profile).filter (!·.isEmpty) }

/-- The command that arguments after its name ask for. -/
def commandOf (c : CommandName) (r : Reading Key) : Command :=
  let paths := r.operands.getD []
  let languages := (r.values? .languages).getD defaultLanguages
  match c with
  | .export_ => .extract paths (r.value? .outDir) (r.has .literals)
  | .generateXlf =>
    .writeExchange paths ((r.value? .outFile).getD [])
      ((r.value? .language).getD defaultSourceLanguage)
  | .importXlf => .readExchange paths ((r.value? .outDir).getD Path.here)
  | .generatePseudo => .pseudo paths ((r.value? .language).getD defaultPseudoLanguage)
  | .generateAzure => .azure paths languages
  | .generateAws => .aws paths languages (awsSettingsOf r)
  | .translators => .translators

private def Refusal.ofStop : Stop → Refusal
  | .help => .help
  | .wrong program c => .wrong program c

private def noExtras (extras : List Text) : Except Refusal Unit :=
  if extras.isEmpty then .ok () else .error (.wrong programName (.unrecognized extras))

/-- What the arguments of the program ask for, or why no command is run. -/
def Invocation.ofArguments (arguments : List Text) : Except Refusal Invocation := do
  let r ← (programGrammar.read .help arguments).mapError Refusal.ofStop
  let level := if r.has .debug then .debug else if r.has .verbose then .info else .warning
  match r.operands.getD [] with
  | [] =>
    noExtras r.extras
    throw .noCommand
  | name :: rest =>
    match CommandName.ofWritten? name with
    | none =>
      throw (.wrong programName
        (.badChoice [commandOperand] name (CommandName.all.map (·.written))))
    | some c =>
      let own ← ((grammarOf c).read .help rest).mapError Refusal.ofStop
      noExtras (r.extras ++ own.extras)
      return { level, command := commandOf c own }

end Localization.CommandLine
