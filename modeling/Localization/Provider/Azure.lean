import Localization.Json.Shown
import Localization.Provider.Message
import Localization.Provider.Settings
import Localization.Url.Query

/-! The provider that takes requests of many texts and answers each for all languages at once. All
batches are sent, and the first one that fails decides. -/

namespace Localization.Provider.Azure

/-- A request: where it goes, and the texts that are to be translated into languages. -/
structure Request where
  url : List Char
  key : Text
  region : Text
  languages : List Text
  texts : List (List Char)
  deriving DecidableEq, Repr

/-- The kind of data that a request holds. -/
def contentType : String := "application/json"

/-- What comes back for a request: a status and the bytes of a body, or nothing. -/
inductive Reply where
  | unreachable (reason : Text)
  | response (status : Nat) (body : List UInt8)
  deriving DecidableEq, Repr

/-- A reply whose body is encoded in UTF-8. -/
def Reply.answer (status : Nat) (body : List Char) : Reply := .response status (Utf8.encode body)

/-- What replies to requests. -/
abbrev Service := Request → Reply

/-- Where notices of this provider come from. -/
def source : String := "l10ndev.translators.azure"

/-- The address of requests for languages; nothing if nothing can be sent there. -/
def address? (s : AzureSettings) (languages : List Text) : Option (List Char) :=
  let values := [("api-version", "3.0".toList), ("from", plainChars s.sourceLanguage)] ++
    languages.map (fun l => ("to", plainChars l)) ++ [("textType", "html".toList)]
  Url.withQuery? (plainChars s.url) (Url.query values)

/-- Whether a text can be part of the head of a request. -/
def isSendable (t : Text) : Bool := t.all fun p => p.toNat < 0x80

/-- The text of a body that says why a request is refused, or else the status. It is UTF-8 unless the
reply names another encoding, which it does not here. -/
def plainReason (status : Nat) (body : List UInt8) : Text :=
  .ofChars (if body.isEmpty then "HTTP ".toList ++ Nat.toDigits 10 status
    else Utf8.decodeLossy body)

/-- Why a request is refused: the message in the body, if the body is data that hold one. A body that
is nested too deeply is a fault of its own. -/
def refusal (nesting status : Nat) (body : List UInt8) : Fault :=
  match Json.ofBytes body nesting with
  | .ok v =>
    match (v.field? "error").bind (Json.field? "message") with
    | some said => .refused said.shown
    | none => .refused (plainReason status body)
  | .error (.content (.deep what)) => .unreadable (.content (.deep what))
  | .error _ => .refused (plainReason status body)

/-- The outputs of a reply for the items of a batch, one for each. -/
def outputsOf (nesting : Nat) (batch : Batch) : Reply → Except Fault (List Json)
  | .unreachable reason => .error (.refused reason)
  | .response status body =>
    if status ≠ 200 then .error (refusal nesting status body)
    else match Json.ofBytes body nesting with
    | .error f => .error (.unreadable f)
    | .ok v => match v.items? with
      | none => .error (.shape .notText)
      | some outputs =>
        if outputs.length = batch.items.length then .ok outputs
        else .error (.miscounted batch.items.length batch.number outputs.length)

/-- A field that a value must have. Only an object has fields. -/
def requiredField (name : String) (v : Json) : Except ShapeError Json :=
  match v, v.field? name with
  | _, some found => .ok found
  | .object _, none => .error (.missingField name)
  | _, none => .error .notText

/-- The translations in an output. Of a text, its first code point is looked at as one. -/
def listed (output : Json) : Except ShapeError (List Json) := do
  match ← requiredField "translations" output with
  | .array xs => .ok xs
  | .string [] => .ok []
  | .string (p :: _) => .ok [.string [p]]
  | _ => .error .notText

/-- The message of a translation. -/
def textOf (convert : Converter) (target : Json) : Except Fault Text := do
  match ← (requiredField "text" target).mapError .shape with
  | .string html => (convert html).mapError .rejected
  | _ => .error (.shape .notText)

/-- The messages that an output holds for an entry, the first one in the first language. -/
def translated (convert : Converter) (languages : List Text) (e : Entry) (output : Json) :
    List (Except Fault (Nat × Translated)) :=
  match listed output with
  | .error fault => [.error (.shape fault)]
  | .ok found =>
    (languages.zip found).mapIdx fun n (language, target) =>
      (textOf convert target).map fun text => (n, ⟨e, language, text⟩)

/-- The bundles of translated messages, one for each of the languages. -/
def bundles (languages : List Text) (all : List (Nat × Translated)) : List (Fields Text) :=
  languages.mapIdx fun n _ =>
    Fields.ofList ((all.filter fun t => t.1 == n).map fun t => (t.2.entry.key, t.2.text))

/-- The notice of what the batches come to. -/
def figuresNotice (items : Nat) (f : Batch.Figures) : Notice :=
  let entry (name : String) (n : Int) : String := "'" ++ name ++ "': " ++ toString n
  { level := .debug, source
    text := .ofString ("Sending " ++ toString items ++ " message(s) to Azure: \x7b" ++
      ", ".intercalate [entry "total_batches" f.batches, entry "total_items" f.items,
        entry "total_estimated_size" f.size, entry "avg_size_per_batch" f.average,
        entry "min_size" f.least, entry "max_size" f.most] ++ "\x7d") }

/-- The notice that a batch is sent. -/
def batchNotice (b : Batch) : Notice :=
  { level := .debug, source
    text := .ofString ("Translating batch " ++ toString b.number ++ " (items " ++
      toString (b.start + 1) ++ "-" ++ toString b.stop ++ " of the bundle)") }

/-- The request of a batch with its entries, if it can be sent, and what comes of it. -/
def send (service : Service) (nesting : Nat) (s : AzureSettings) (languages : List Text)
    (url : Option (List Char)) (entries : List Entry) (b : Batch) :
    Option Request × Except Fault (List Json) :=
  match url with
  | none => (none, .error .address)
  | some url =>
    if isSendable s.key && isSendable s.region && entries.all Entry.isSendable then
      let request : Request :=
        { url, key := s.key, region := s.region, languages, texts := b.items.map Item.text }
      (some request, outputsOf nesting b (service request))
    else (none, .error .unsendable)

/-- Batches with the entries that their items stand for. -/
def withEntries (batches : List Batch) (entries : List Entry) : List (Batch × List Entry) :=
  batches.map fun b => (b, (entries.drop b.start).take b.items.length)

/-- Translates a bundle into languages, where `reply` answers the request of each batch. -/
def translateBy (reply : Batch → Service) (s : AzureSettings) (limits : Limits) (bundle : Bundle)
    (languages : List Text) (m : Means := {}) : Run Request :=
  if bundle.isEmpty || languages.isEmpty then { result := .ok (languages.map fun _ => []) }
  else match Entry.ofBundle bundle with
  | .error e => { result := .error (.shape e) }
  | .ok entries =>
    match Batch.ofItems limits languages.length (entries.map Entry.item) with
    | .error item => { result := .error (.tooLarge item) }
    | .ok batches =>
      let first := figuresNotice entries.length (Batch.figures batches)
      if s.maxConcurrency < 0 then { notices := [first], result := .error .concurrency }
      else
        let url := address? s languages
        let pairs := withEntries batches entries
        let sends := pairs.map fun (b, es) => send (reply b) m.nesting s languages url es b
        let requests := sends.filterMap Prod.fst
        let notices := first :: batches.map batchNotice
        match sends.mapM Prod.snd with
        | .error fault => { requests, notices, result := .error fault }
        | .ok outputs =>
          let all := (pairs.zip outputs).flatMap fun ((_, es), outs) =>
            (es.zip outs).flatMap fun (e, out) => translated m.convert languages e out
          let (done, fault) := untilFault all
          let notices := notices ++ done.flatMap fun t => t.2.notices .azure
          match fault with
          | some e => { requests, notices, result := .error e }
          | none => { requests, notices, result := .ok (bundles languages done) }

/-- Translates a bundle into languages by a service. -/
def translate (service : Service) (s : AzureSettings) (limits : Limits) (bundle : Bundle)
    (languages : List Text) (m : Means := {}) : Run Request :=
  translateBy (fun _ => service) s limits bundle languages m

end Localization.Provider.Azure
