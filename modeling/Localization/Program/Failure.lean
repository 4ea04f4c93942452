import Localization.File.Manifest
import Localization.Json.Writer
import Localization.Script.Call
import Localization.Script.Extraction
import Localization.Provider.Fault
import Localization.Provider.Settings
import Localization.Xliff.Reading

/-! Why a command fails, with the kinds under which failures are reported. -/

namespace Localization

def FileFault.kind : FileFault → String
  | .taken => "FileExistsError"
  | .noFolder => "NotADirectoryError"
  | .isFolder => "IsADirectoryError"
  | .missing => "FileNotFoundError"

def Json.Complaint.kind : Json.Complaint → String
  | .long _ => "ValueError"
  | .deep _ => "RecursionError"
  | _ => "JSONDecodeError"

def Json.DataFault.kind : Json.DataFault → String
  | .encoding => "UnicodeDecodeError"
  | .content c => c.kind

def ReadFault.kind : ReadFault → String
  | .file f => f.kind
  | .notText _ => "UnicodeDecodeError"
  | .notData c _ => c.kind

def NameFault.kind : NameFault → String
  | .surrogate => "UnicodeEncodeError"
  | .null => "ValueError"

def NameFault.message : NameFault → String
  | .surrogate => "surrogates not allowed"
  | .null => "embedded null byte"

def ShapeError.kind : ShapeError → String
  | .missingField _ => "KeyError"
  | .notText => "TypeError"

def ShapeError.message : ShapeError → String
  | .missingField name => "'" ++ name ++ "'"
  | .notText => "a value is no text"

def Manifest.Fault.kind : Manifest.Fault → String
  | .name f => f.kind
  | .deep what => (Json.Complaint.deep what).kind
  | .notObject => "AttributeError"
  | .notText => "TypeError"

def Manifest.Fault.message : Manifest.Fault → String
  | .name f => f.message
  | .deep what => (Json.Complaint.deep what).message
  | .notObject => "the manifest is no object"
  | .notText => "the folder in the manifest is no text"

def Script.CallError.kind : Script.CallError → String
  | .substitution .. => "TemplateArgumentError"
  | .escape _ => "UnescapeError"

/-- The kind that a report gives to a translation that failed. -/
def Provider.Fault.kind : Provider.Fault → String
  | .shape e => e.kind
  | .tooLarge _ | .refused _ | .miscounted .. => "TranslationError"
  | .unreadable f => f.kind
  | .rejected r => r.kind
  | .unsendable => "UnicodeEncodeError"
  | .address => "InvalidURL"
  | .concurrency => "ValueError"
  | .attempts => "InvalidMaxRetryAttemptsError"

/-- Why a command fails. -/
inductive Failure where
  | unsupported (e : Script.UnsupportedFile)
  | call (e : Script.CallError)
  | exchange (e : Xliff.ReadError)
  /-- A unit has no key or no message. -/
  | emptyUnit
  | settings (e : SettingsError)
  | provider (f : Provider.Fault)
  | shape (e : ShapeError)
  /-- The data in the file that a path leads to is no object. -/
  | notObject (p : Path)
  | notBundle (p : Path)
  | manifest (f : Manifest.Fault)
  | name (f : NameFault)
  | read (p : Path) (f : ReadFault)
  | write (p : Path) (f : FileFault)
  /-- What should be written is no text that can be encoded. -/
  | unencodable (p : Path)

namespace Failure

/-- The kind under which a failure is reported. -/
def kind : Failure → String
  | .unsupported _ => "UnsupportedFileError"
  | .call e => e.kind
  | .exchange _ | .emptyUnit => "XliffError"
  | .settings _ => "ConfigError"
  | .provider f => f.kind
  | .shape e => e.kind
  | .notObject _ | .notBundle _ => "ValueError"
  | .manifest f => f.kind
  | .name f => f.kind
  | .read _ f => f.kind
  | .write _ f => f.kind
  | .unencodable _ => "UnicodeEncodeError"

/-- What is said of a failure. -/
def message : Failure → Text
  | .unsupported e => .ofString e.message
  | .call e => .ofChars e.message
  | .exchange e => e.message
  | .emptyUnit => Xliff.Document.emptyUnitMessage
  | .settings e => e.message
  | .provider f => f.message?.getD (.ofString "the service cannot be used")
  | .shape e => .ofString e.message
  | .notObject p => .ofString "Expected a JSON object in " ++ p.toText
  | .notBundle p => .ofString "Not an l10n bundle file: " ++ p.toText
  | .manifest f => .ofString f.message
  | .name f => .ofString f.message
  | .read p f => f.message p
  | .write p f => f.message p
  | .unencodable p => .ofString "surrogates not allowed in " ++ p.toText

/-- The line in which a failure is reported. -/
def line (f : Failure) : Text :=
  (Json.object [("status", .string (.ofString "error")), ("error", .string f.message),
    ("error_type", .string (.ofString f.kind))]).renderLine

end Failure

end Localization
