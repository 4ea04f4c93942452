import Localization.Json

/-! Bundles of messages. A message is a text with comments for its translator; a bundle maps the key
of each message to its value: the text alone, lines of text, or text and comments. Bundles that come
from files may hold any other value as well. -/

namespace Localization

/-- A message and the comments for its translator. -/
structure Message where
  text : Text
  comments : List Text := []
  deriving DecidableEq, Repr

namespace Message

/-- The key of a message: its text, and its comments after a slash. -/
def key (m : Message) : Text :=
  if m.comments.isEmpty then m.text else m.text ++ .char '/' :: m.comments.flatten

/-- The value of a message: its text alone if there are no comments. -/
def value (m : Message) : Json :=
  if m.comments.isEmpty then .string m.text
  else .object [(Text.ofString "message", .string m.text),
    (Text.ofString "comment", .array (m.comments.map .string))]

end Message

/-- Why a value of a bundle holds no message. -/
inductive ShapeError where
  | missingField (name : String)
  /-- A value, or a part of one, of a kind that has no text. -/
  | notText
  deriving DecidableEq, Repr

/-- A bundle: values under their keys, in order. -/
abbrev Bundle := Fields Json

namespace Bundle

/-- The texts of items, if all of them are strings. -/
def texts? (items : List Json) : Option (List Text) := items.mapM Json.string?

/-- The lines of a message as one text; an item that is no text is refused. -/
def joinLines (items : List Json) : Except ShapeError Text :=
  match texts? items with
  | some ts => .ok (Text.join [.char '\n'] ts)
  | none => .error .notText

/-- The message of a value, of whatever kind it is. -/
def messageOf : Json → Except ShapeError Json
  | .string t => .ok (.string t)
  | .array items => (joinLines items).map .string
  | .object fields =>
    match Fields.get? (Text.ofString "message") fields with
    | some v => .ok v
    | none => .error (.missingField "message")
  | _ => .error .notText

/-- The text of a message; one of several lines has to be joined before. -/
def textOf (v : Json) : Except ShapeError Text :=
  match messageOf v with
  | .ok (.string t) => .ok t
  | .ok _ => .error .notText
  | .error e => .error e

/-- The comments of a value, of whatever kind they are. -/
def commentOf (v : Json) : Option Json := v.field? "comment"

def isPlain (v : Json) : Bool := !((commentOf v).getD .null).isPresent

/-- The bundle with the lines of every message joined. -/
def joined (b : Bundle) : Except ShapeError Bundle :=
  b.mapM fun (k, v) => match v with
    | .array items => (joinLines items).map fun t => (k, .string t)
    | v => .ok (k, v)

mutual

/-- A value laid over what was there: objects are merged, anything else is replaced. -/
def mergeValue (old : Option Json) : Json → Json
  | .object fields =>
    match old with
    | some (.object kept) => .object (mergeFields kept fields)
    | _ => .object fields
  | v => v

/-- The fields of an object laid over those of another, in order. -/
def mergeFields (kept : Fields Json) : List (Text × Json) → Fields Json
  | [] => kept
  | (k, v) :: rest => mergeFields (kept.put k (mergeValue (kept.get? k) v)) rest

end

/-- Bundles laid over one another: the later one wins. -/
def mergeAll (bundles : List Bundle) : Bundle := bundles.foldl mergeFields []

/-- The keys of `later` that are in `seen`, and `seen` with the keys of plain values of `later`. -/
def collide (seen : List Text) : Bundle → List Text × List Text
  | [] => ([], seen)
  | (k, v) :: rest =>
    if seen.contains k then
      let (noted, seen) := collide seen rest
      (k :: noted, seen)
    else collide (if isPlain v then k :: seen else seen) rest

end Bundle

end Localization
