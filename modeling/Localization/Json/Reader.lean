import Localization.Json
import Localization.Text.Encoding

/-! Reading a value from the text of a data file. Numbers may also be `NaN` and the infinities; an
escape may spell a surrogate that stands alone. A text that writes no value has a fault: what is
wrong and how many code points stand before it. Two bounds keep a value from being read: on the
digits of an integer, and on how many arrays and objects stand in each other. -/

namespace Localization.Json

/-- The bound on the digits of an integer, as it is unless the environment sets another one. -/
def digitLimit : Nat := 4300

/-- How many arrays and objects may stand in each other. The stack decides it, so that the caller of
the reader matters; this many fit on a stack that is nearly empty. -/
def usualNesting : Nat := 990

/-- What is wrong with a text that writes no value. -/
inductive Complaint where
  | value
  | name
  | colon
  | comma
  | tail
  | openString
  | control
  | escape
  | unitEscape
  | mark
  /-- An integer has more digits than are read. -/
  | long (digits : Nat)
  /-- An array or an object stands in more others than are read. -/
  | deep (what : String)
  deriving DecidableEq, Repr

/-- What is said of a complaint. -/
def Complaint.message : Complaint → String
  | .value => "Expecting value"
  | .name => "Expecting property name enclosed in double quotes"
  | .colon => "Expecting ':' delimiter"
  | .comma => "Expecting ',' delimiter"
  | .tail => "Extra data"
  | .openString => "Unterminated string starting at"
  | .control => "Invalid control character at"
  | .escape => "Invalid \\escape"
  | .unitEscape => "Invalid \\uXXXX escape"
  | .mark => "Unexpected UTF-8 BOM (decode using utf-8-sig)"
  | .long digits =>
    "Exceeds the limit (" ++ toString digitLimit ++ " digits) for integer string conversion: " ++
      "value has " ++ toString digits ++
      " digits; use sys.set_int_max_str_digits() to increase the limit"
  | .deep what =>
    "maximum recursion depth exceeded while decoding a JSON " ++ what ++ " from a unicode string"

/-- Whether a complaint is about the text itself, and so is told with its place. -/
def Complaint.isPlaced : Complaint → Bool
  | .long _ | .deep _ => false
  | _ => true

/-- Why a text writes no value, and how many code points stand before the fault. -/
structure Fault where
  complaint : Complaint
  offset : Nat
  deriving DecidableEq, Repr

/-- What is said of a fault in a text. Lines and columns count from one. -/
def Fault.message (f : Fault) (text : Text) : String :=
  let before := text.take f.offset
  let line := before.count (.char '\n') + 1
  let column := (before.reverse.takeWhile (!·.isChar '\n')).length + 1
  f.complaint.message ++
    if f.complaint.isPlaced then
      ": line " ++ toString line ++ " column " ++ toString column ++
        " (char " ++ toString f.offset ++ ")"
    else ""

/-- What is read; else what is wrong, and the code points from there on. -/
abbrev Read (α : Type) := Except (Complaint × Text) α

/-- Whether a code point may stand between the parts of a value. -/
def isBlank : CodePoint → Bool
  | .char c => c == ' ' || c == '\t' || c == '\n' || c == '\r'
  | .surrogate _ => false

/-- Without what may stand before a part of a value. -/
def skipBlanks (t : Text) : Text := t.dropWhile isBlank

/-- The value of a hexadecimal digit. -/
def hexValue? : CodePoint → Option Nat
  | .char c =>
    if '0' ≤ c ∧ c ≤ '9' then some (c.toNat - 48)
    else if 'a' ≤ c ∧ c ≤ 'f' then some (c.toNat - 87)
    else if 'A' ≤ c ∧ c ≤ 'F' then some (c.toNat - 55)
    else none
  | .surrogate _ => none

/-- The number that four hexadecimal digits write, and what follows them, which is not nothing. `t`
begins with the letter before the digits. -/
def unit (t : Text) : Read (Nat × Text) :=
  match t with
  | _ :: a :: b :: c :: d :: e :: rest =>
    match hexValue? a, hexValue? b, hexValue? c, hexValue? d with
    | some a, some b, some c, some d => .ok ((a * 16 + b) * 256 + c * 16 + d, e :: rest)
    | _, _, _, _ => .error (.unitEscape, t)
  | _ => .error (.unitEscape, t)

/-- The character that an escape with a letter stands for. -/
def letterEscape? : CodePoint → Option Char
  | .char '"' => some '"'
  | .char '\\' => some '\\'
  | .char '/' => some '/'
  | .char 'b' => some '\x08'
  | .char 'f' => some '\x0c'
  | .char 'n' => some '\n'
  | .char 'r' => some '\r'
  | .char 't' => some '\t'
  | _ => none

/-- The rest of a string after its opening quote, with the code points before it backwards.
`opening` begins with that quote. Surrogates are joined if both are escaped. -/
def stringFrom (opening : Text) : (fuel : Nat) → Text → Text → Read (Text × Text)
  | 0, _, _ => .error (.openString, opening)
  | _, _, [] => .error (.openString, opening)
  | _, _, [.char '\\'] => .error (.openString, opening)
  | fuel + 1, done, .char '\\' :: .char 'u' :: t => do
    let (high, t) ← unit (.char 'u' :: t)
    match t with
    | .char '\\' :: .char 'u' :: u =>
      if 0xD800 ≤ high ∧ high < 0xDC00 then
        let (low, u) ← unit (.char 'u' :: u)
        if 0xDC00 ≤ low ∧ low < 0xE000 then
          stringFrom opening fuel
            (CodePoint.ofNat (0x10000 + (high - 0xD800) * 0x400 + (low - 0xDC00)) :: done) u
        else stringFrom opening fuel (CodePoint.ofNat high :: done) t
      else stringFrom opening fuel (CodePoint.ofNat high :: done) t
    | _ => stringFrom opening fuel (CodePoint.ofNat high :: done) t
  | fuel + 1, done, .char '\\' :: p :: t =>
    match letterEscape? p with
    | some d => stringFrom opening fuel (.char d :: done) t
    | none => .error (.escape, .char '\\' :: p :: t)
  | fuel + 1, done, p :: t =>
    if p.isChar '"' then .ok (done.reverse, t)
    else if p.toNat < 0x20 then .error (.control, p :: t)
    else stringFrom opening fuel (p :: done) t

/-- A string that begins with its opening quote. -/
def quotedText (t : Text) : Read (Text × Text) := stringFrom t (t.length + 1) [] (t.drop 1)

/-- The digits at the start of a text. -/
def digits : Text → List Char
  | .char c :: t => if c.isDigit then c :: digits t else []
  | _ => []

/-- The point and the digits behind it, if both are there, and what follows them. -/
def fraction (t : Text) : List Char × Text :=
  match t with
  | .char '.' :: rest =>
    let ds := digits rest
    if ds.isEmpty then ([], t) else ('.' :: ds, rest.drop ds.length)
  | _ => ([], t)

/-- An exponent with its letter and its sign, if it has digits, and what follows it. -/
def exponent (t : Text) : List Char × Text :=
  match t with
  | .char e :: rest =>
    if e == 'e' || e == 'E' then
      let (sign, rest) := match rest with
        | .char '+' :: r => (['+'], r)
        | .char '-' :: r => (['-'], r)
        | r => ([], r)
      let ds := digits rest
      if ds.isEmpty then ([], t) else (e :: sign ++ ds, rest.drop ds.length)
    else ([], t)
  | _ => ([], t)

/-- A number, and what follows it. -/
def number (t : Text) : Read (Json × Text) :=
  let (sign, rest) := match t with
    | .char '-' :: r => (['-'], r)
    | r => ([], r)
  let whole := match rest with
    | .char '0' :: _ => ['0']
    | r => digits r
  if whole.isEmpty then .error (.value, t)
  else
    let (f, rest) := fraction (rest.drop whole.length)
    let (e, rest) := exponent rest
    if !f.isEmpty || !e.isEmpty then .ok (.decimal (sign ++ whole ++ f ++ e), rest)
    else if digitLimit < whole.length then .error (.long whole.length, t)
    else
      let n : Int := natOfDigits whole
      .ok (.integer (if sign.isEmpty then n else -n), rest)

/-- The values that are written as a word. -/
def words : List (String × Json) :=
  [("null", .null), ("true", .bool true), ("false", .bool false), ("NaN", .decimal "NaN".toList),
   ("Infinity", .decimal "Infinity".toList), ("-Infinity", .decimal "-Infinity".toList)]

/-- The value of the word that a text begins with, and what follows it. -/
def word? (t : Text) : Option (Json × Text) :=
  (words.find? fun w => (Text.ofString w.1).isPrefixOf t).map fun w => (w.2, t.drop w.1.length)

mutual

/-- A value, and what follows it. `nesting` arrays and objects may stand in each other here. -/
def valueFrom : (fuel nesting : Nat) → Text → Read (Json × Text)
  | 0, _, t => .error (.value, t)
  | fuel + 1, nesting, t =>
    match t with
    | .char '"' :: _ => (quotedText t).map fun (s, r) => (.string s, r)
    | .char '[' :: rest =>
      match nesting with
      | 0 => .error (.deep "array", t)
      | nesting + 1 =>
        match skipBlanks rest with
        | .char ']' :: r => .ok (.array [], r)
        | r => (itemsFrom fuel nesting [] r).map fun (xs, r) => (.array xs, r)
    | .char '{' :: rest =>
      match nesting with
      | 0 => .error (.deep "object", t)
      | nesting + 1 =>
        match skipBlanks rest with
        | .char '}' :: r => .ok (.object [], r)
        | r => (fieldsFrom fuel nesting [] r).map fun (fs, r) => (.object fs, r)
    | _ =>
      match word? t with
      | some found => .ok found
      | none => number t

/-- The items of an array from one of them on, and what follows the array. -/
def itemsFrom : (fuel nesting : Nat) → List Json → Text → Read (List Json × Text)
  | 0, _, _, t => .error (.value, t)
  | fuel + 1, nesting, done, t => do
    let (v, rest) ← valueFrom fuel nesting t
    match skipBlanks rest with
    | .char ',' :: r => itemsFrom fuel nesting (v :: done) (skipBlanks r)
    | .char ']' :: r => .ok ((v :: done).reverse, r)
    | r => .error (.comma, r)

/-- The fields of an object from one of them on, and what follows the object. -/
def fieldsFrom : (fuel nesting : Nat) → Fields Json → Text → Read (Fields Json × Text)
  | 0, _, _, t => .error (.name, t)
  | fuel + 1, nesting, done, t =>
    match t with
    | .char '"' :: _ => do
      let (k, rest) ← quotedText t
      match skipBlanks rest with
      | .char ':' :: r => do
        let (v, rest) ← valueFrom fuel nesting (skipBlanks r)
        let done := done.put k v
        match skipBlanks rest with
        | .char ',' :: r => fieldsFrom fuel nesting done (skipBlanks r)
        | .char '}' :: r => .ok (done, r)
        | r => .error (.comma, r)
      | r => .error (.colon, r)
    | _ => .error (.name, t)

end

/-- The value that a text writes, or why it writes none. -/
def read (t : Text) (nesting : Nat := usualNesting) : Except Fault Json :=
  let found : Read Json := do
    let (v, rest) ← valueFrom (2 * t.length + 2) nesting (skipBlanks t)
    let rest := skipBlanks rest
    if rest.isEmpty then return v else throw (.tail, rest)
  found.mapError fun (complaint, rest) => ⟨complaint, t.length - rest.length⟩

/-- The value in the text of a file, which must not begin with the mark of an encoding. -/
def parse (t : Text) (nesting : Nat := usualNesting) : Except Fault Json :=
  if t.head? = some (.char '\ufeff') then .error ⟨.mark, 0⟩ else read t nesting

/-- The value that characters write; nothing if they write none. -/
def parse? (cs : List Char) : Option Json := (parse (.ofChars cs)).toOption

/-! Values may stand in bytes, in whatever encoding they are. -/

/-- Why bytes hold no value: they are no text, or their text writes none. -/
inductive DataFault where
  | encoding
  | content (c : Complaint)
  deriving DecidableEq, Repr

/-- The value that bytes hold, or why they hold none. -/
def ofBytes (bytes : List UInt8) (nesting : Nat := usualNesting) : Except DataFault Json :=
  match Text.ofBytes? bytes with
  | none => .error .encoding
  | some t => (read t nesting).mapError fun f => .content f.complaint

end Localization.Json
