import Localization.CommandLine.Grammar

/-! Arguments read by a grammar. A long option may be cut short if no other one begins alike, and
has its value after `=` or in the next argument; short options without values may be written
together. The argument `--` ends the options. -/

namespace Localization.CommandLine

/-- A value that is part of the argument that names an option. -/
structure Attached where
  byEquals : Bool
  value : Text
  deriving DecidableEq, Repr

/-- An option that an argument names: its rule, the name, and a value that is part of the
argument. -/
structure Use (κ : Type) where
  rule : Rule κ
  name : Text
  attached : Option Attached := none

/-- An argument, told apart as an option or a value before anything is read. -/
inductive Token (κ : Type) where
  | mark
  | value (t : Text)
  /-- An option; nothing is known of one that the grammar does not have. -/
  | option (written : Text) (use : Option (Use κ))

namespace Token

variable {κ : Type}

def written : Token κ → Text
  | .mark => .ofString "--"
  | .value t => t
  | .option t _ => t

def isOption : Token κ → Bool
  | .option .. => true
  | _ => false

def isValue : Token κ → Bool
  | .value _ => true
  | _ => false

def isMark : Token κ → Bool
  | .mark => true
  | _ => false

end Token

/-- What the arguments read so far settle. -/
structure Reading (κ : Type) where
  /-- The values of options, the last one first. -/
  values : List (κ × List Text) := []
  operands : Option (List Text) := none
  extras : List Text := []

namespace Reading

variable {κ : Type} [DecidableEq κ]

/-- The values that an option was given last. -/
def values? (r : Reading κ) (k : κ) : Option (List Text) := r.values.lookup k

/-- The value that an option was given last. -/
def value? (r : Reading κ) (k : κ) : Option Text := (r.values? k).bind List.head?

def has (r : Reading κ) (k : κ) : Bool := (r.values? k).isSome

end Reading

namespace Grammar

variable {κ : Type}

/-- The rules of a grammar by each of their names. -/
def named (g : Grammar κ) : List (Text × Rule κ) :=
  g.rules.flatMap fun r => r.names.map fun n => (n, r)

/-- The name of an option and the value that is attached to it with an equals sign. -/
def cutAtEquals (t : Text) : Text × Option Attached :=
  let before := t.takeWhile fun p => !p.isChar '='
  match t.drop before.length with
  | [] => (before, none)
  | _ :: after => (before, some ⟨true, after⟩)

def isLong (t : Text) : Bool := (Text.ofString "--").isPrefixOf t

/-- Whether text is a number below zero, which is no option. -/
def isNegative (t : Text) : Bool :=
  let isDigit (p : CodePoint) : Bool := 0x30 ≤ p.toNat && p.toNat ≤ 0x39
  match t with
  | [] => false
  | _ :: t =>
    let whole := t.takeWhile isDigit
    match t.drop whole.length with
    | [] => !whole.isEmpty
    | p :: fraction => p.isChar '.' && !fraction.isEmpty && fraction.all isDigit

/-- The options that an argument may mean if it is not the whole name of one. -/
def candidates (g : Grammar κ) (t : Text) : List (Use κ) :=
  if isLong t then
    let (begun, attached) := cutAtEquals t
    g.named.filterMap fun (n, rule) =>
      if begun.isPrefixOf n then some { rule, name := n, attached } else none
  else
    g.named.filterMap fun (n, rule) =>
      if n = t.take 2 then some { rule, name := n, attached := some ⟨false, t.drop 2⟩ } else none

/-- What an argument is taken for if the options have not ended. -/
def tokenOf (g : Grammar κ) (t : Text) : Except Stop (Token κ) :=
  match t with
  | [] | [_] => .ok (.value t)
  | p :: _ =>
    if !p.isChar '-' then .ok (.value t)
    else match g.named.lookup t with
    | some rule => .ok (.option t (some { rule, name := t }))
    | none =>
      let (before, attached) := cutAtEquals t
      match attached, g.named.lookup before with
      | some _, some rule => .ok (.option t (some { rule, name := before, attached }))
      | _, _ =>
        match g.candidates t with
        | [use] => .ok (.option t (some use))
        | [] =>
          if isNegative t || t.any (CodePoint.isChar ' ') then .ok (.value t)
          else .ok (.option t none)
        | uses => .error (.wrong g.program (.ambiguous t (uses.map (·.name))))

/-- The tokens of arguments; after a mark, all of them are values. -/
def tokensOf (g : Grammar κ) : List Text → Except Stop (List (Token κ))
  | [] => .ok []
  | t :: ts =>
    if t = .ofString "--" then .ok (.mark :: ts.map .value)
    else do return (← g.tokenOf t) :: (← tokensOf g ts)

/-- Options with their values, an argument that is left over, and how many of the next arguments are
values. -/
structure Taken (κ : Type) where
  given : List (Rule κ × List Text)
  extra : Option Text := none
  used : Nat := 0

/-- What an option takes from the arguments after it. -/
def takeNext (rule : Rule κ) (next : List (Token κ)) : Except Complaint (Taken κ) :=
  let values := (next.takeWhile Token.isValue).map Token.written
  match rule.arity, values with
  | .none, _ => .ok { given := [(rule, [])] }
  | .one, v :: _ => .ok { given := [(rule, [v])], used := 1 }
  | .one, [] => .error (.oneExpected rule.names)
  | .some, [] => .error (.someExpected rule.names)
  | .some, vs => .ok { given := [(rule, vs)], used := vs.length }

/-- What an option with a value in its own argument takes. A short option without values leaves the
characters after it to further short options. -/
def takeAttached (g : Grammar κ) (rule : Rule κ) (long byEquals : Bool) (next : List (Token κ)) :
    (value : Text) → Except Complaint (Taken κ)
  | [] =>
    if rule.arity = .none then .error (.ignoredValue rule.names [])
    else .ok { given := [(rule, [[]])] }
  | p :: rest =>
    if rule.arity ≠ .none then .ok { given := [(rule, [p :: rest])] }
    else if long || byEquals || p.isChar '-' then .error (.ignoredValue rule.names (p :: rest))
    else
      let first := (rule, ([] : List Text))
      match g.named.lookup [.char '-', p] with
      | none => .ok { given := [first], extra := some (.char '-' :: p :: rest) }
      | some rule =>
        let more := match rest with
          | [] => takeNext rule next
          | q :: value =>
            if q.isChar '=' then takeAttached g rule false true next value
            else takeAttached g rule false false next (q :: value)
        more.map fun taken => { taken with given := first :: taken.given }

/-- The values that a use of an option takes, from itself or from the tokens after it. -/
def take (g : Grammar κ) (u : Use κ) (next : List (Token κ)) : Except Complaint (Taken κ) :=
  match u.attached with
  | none => takeNext u.rule next
  | some a => g.takeAttached u.rule (isLong u.name) a.byEquals next a.value

variable [DecidableEq κ]

/-- Options given one after another, where `help` is the key of the option that asks for help. -/
def give (g : Grammar κ) (help : κ) (r : Reading κ) :
    List (Rule κ × List Text) → Except Stop (Reading κ)
  | [] => .ok r
  | (rule, values) :: rest =>
    if rule.key = help then .error .help
    else match values.find? fun v => !rule.choices.isEmpty && !rule.choices.contains v with
    | some v => .error (.wrong g.program (.badChoice rule.names v rule.choices))
    | none => give g help { r with values := (rule.key, values) :: r.values } rest

/-- How many arguments are operands if operands begin with them. -/
def operandCount (g : Grammar κ) (r : Reading κ) (tokens : List (Token κ)) : Nat :=
  let marks := tokens.takeWhile Token.isMark
  match r.operands, (tokens.drop marks.length).head? with
  | none, some (.value _) =>
    match g.operands with
    | .none => 0
    | .command => tokens.length
    | .values _ => (tokens.takeWhile fun t => !t.isOption).length
  | _, _ => 0

/-- Operands put into a reading. The first end of the options among them is none of them, unless
they are those of a command. -/
def putOperands (g : Grammar κ) (r : Reading κ) (ts : List Text) : Reading κ :=
  { r with operands := some (if g.operands = .command then ts else ts.erase (.ofString "--")) }

/-- Reads tokens in order: operands where they stand, and options with their values. -/
def readTokens (g : Grammar κ) (help : κ) :
    (fuel : Nat) → Reading κ → List (Token κ) → Except Stop (Reading κ)
  | 0, r, _ => .ok r
  | fuel + 1, r, tokens =>
    let before := tokens.takeWhile fun t => !t.isOption
    let count := if before.isEmpty then 0 else g.operandCount r tokens
    if 0 < count then
      let operands := (tokens.take count).map Token.written
      readTokens g help fuel (g.putOperands r operands) (tokens.drop count)
    else
      let r := { r with extras := r.extras ++ before.map Token.written }
      match tokens.drop before.length with
      | .option written none :: rest =>
        readTokens g help fuel { r with extras := r.extras ++ [written] } rest
      | .option _ (some u) :: rest =>
        match g.take u rest with
        | .error c => .error (.wrong g.program c)
        | .ok taken => do
          let r ← g.give help r taken.given
          readTokens g help fuel { r with extras := r.extras ++ taken.extra.toList }
            (rest.drop taken.used)
      | _ => .ok r

/-- The names of what must be given and is not. -/
def missing (g : Grammar κ) (r : Reading κ) : List Text :=
  let operands := match g.operands, r.operands with
    | .values name, none => [name]
    | _, _ => []
  operands ++ (g.rules.filter fun rule => rule.required && !r.has rule.key).map fun rule =>
    joinedNames rule.names

/-- Reads the arguments by a grammar; options that have to be there and are not are named. -/
def read (g : Grammar κ) (help : κ) (arguments : List Text) : Except Stop (Reading κ) := do
  let tokens ← g.tokensOf arguments
  let r ← g.readTokens help (tokens.length + 1) {} tokens
  match g.missing r with
  | [] => return r
  | names => throw (.wrong g.program (.missing names))

end Grammar

end Localization.CommandLine
