import Localization.Markdown.Html
import Localization.Markdown.OfHtml
import Localization.Markup.Protection
import Localization.Notice
import Localization.Placeholder
import Localization.Provider.Fault
import Localization.Provider.Registry

/-! Messages on their way to a service and back: markdown becomes hypertext in which placeholders
are protected, and hypertext becomes markdown again. -/

namespace Localization.Provider

/-- The characters of text, with U+FFFD in place of lone surrogates. -/
def plainChars (t : Text) : List Char :=
  t.map fun
    | .char c => c
    | .surrogate _ => '\ufffd'

/-- The hypertext that is sent for a message. -/
def sent (message : Text) : List Char :=
  Markup.Protection.protect (Markdown.toHtml (plainChars message))

/-- The message that hypertext is received as. -/
def received (html : List Char) : Text := Markdown.ofHypertext (.ofChars html)

/-- What makes messages of the hypertext that a service gives. It may take only some of it. -/
abbrev Converter := Text → Except Rejection Text

/-- The converter that takes all hypertext. -/
def Converter.markdown : Converter := fun html => .ok (Markdown.ofHypertext html)

/-- What a translation needs besides a service: how many arrays and objects may stand in each other in
what the service replies, and a converter. -/
structure Means where
  nesting : Nat := Json.usualNesting
  convert : Converter := .markdown

/-- A message of a bundle under its key. -/
structure Entry where
  key : Text
  message : Text
  deriving DecidableEq, Repr

namespace Entry

/-- The entries of a bundle. That a value has no message at all is found before that a message is no
text. -/
def ofBundle (b : Bundle) : Except ShapeError (List Entry) := do
  let values ← b.mapM fun (k, v) => (Bundle.messageOf v).map fun m => (k, m)
  values.mapM fun (k, m) => match m with
    | .string t => .ok ⟨k, t⟩
    | _ => .error .notText

/-- The hypertext of an entry. -/
def html (e : Entry) : List Char := sent e.message

/-- The item of a batch for an entry. -/
def item (e : Entry) : Item := ⟨e.key, e.html⟩

/-- Whether the message can be sent: no surrogate stands alone in it. -/
def isSendable (e : Entry) : Bool := e.message.toChars?.isSome

end Entry

/-- A message in a language, for an entry. -/
structure Translated where
  entry : Entry
  language : Text
  text : Text
  deriving DecidableEq, Repr

/-- The notices about placeholders that a translated message lacks. -/
def Translated.notices (backend : Backend) (t : Translated) : List Notice :=
  (Placeholder.validate t.entry.message t.text).map fun said =>
    { level := .warning, source := "l10ndev.translators.base"
      text := said ++ .ofString (" (" ++ backend.name ++ ", ") ++ t.language ++ .ofString "): " ++
        t.entry.key }

/-- What comes before the first fault, and the fault. -/
def untilFault {ε α : Type} : List (Except ε α) → List α × Option ε
  | [] => ([], none)
  | .ok a :: rest =>
    let (done, fault) := untilFault rest
    (a :: done, fault)
  | .error e :: _ => ([], some e)

/-- What a run of a provider does: what it sends, what it says, and what comes of it. -/
structure Run (Request : Type) where
  requests : List Request := []
  notices : List Notice := []
  result : Except Fault (List (Fields Text))

end Localization.Provider
