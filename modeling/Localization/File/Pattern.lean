import Localization.File.Tree

/-! Patterns of paths. In a name, `*` stands for any characters, `?` for one, and brackets for one
of those between them; the name `**` stands for any folders. Names that begin with a dot are found
only by patterns that do. -/

namespace Localization

/-- Characters that a bracket lists: single ones and ranges, or all but these. -/
structure CharacterSet where
  negated : Bool
  members : List CodePoint
  ranges : List (CodePoint × CodePoint)
  deriving DecidableEq, Repr

namespace CharacterSet

def contains (s : CharacterSet) (p : CodePoint) : Bool :=
  s.negated != (s.members.contains p ||
    s.ranges.any fun r => r.1.toNat ≤ p.toNat && p.toNat ≤ r.2.toNat)

/-- Text cut at the hyphens that make ranges: the first one that has something before it, and each
later one that has two characters before it. `chunk` is what stands before, backwards. -/
def chunksFrom (least : Nat) (chunk : Text) : Text → List Text
  | [] => [chunk.reverse]
  | p :: t =>
    if p.isChar '-' && least ≤ chunk.length then chunk.reverse :: chunksFrom 2 [] t
    else chunksFrom least (p :: chunk) t

/-- Chunks without an empty one at the end, which stands for a hyphen. -/
def closeChunks : List Text → List Text
  | [] => []
  | [c] => [c]
  | [c, []] => [c ++ [.char '-']]
  | c :: rest => c :: closeChunks rest

/-- Chunks joined where the range between them would be empty: its ends are left out. -/
def joinEmpty : List Text → List Text
  | [] => []
  | c :: rest =>
    match joinEmpty rest with
    | [] => [c]
    | d :: rest =>
      match c.getLast?, d with
      | some a, b :: ds =>
        if b.toNat < a.toNat then (c.dropLast ++ ds) :: rest else c :: d :: rest
      | _, _ => c :: d :: rest

/-- The ranges of characters that pieces of a set, cut at hyphens, stand for. -/
def rangesOf : List Text → List (CodePoint × CodePoint)
  | c :: d :: rest =>
    match c.getLast?, d.head? with
    | some a, some b => (a, b) :: rangesOf (d :: rest)
    | _, _ => rangesOf (d :: rest)
  | _ => []

/-- The set that the characters between brackets write. -/
def ofText (t : Text) : CharacterSet :=
  let least := if t.head? = some (.char '!') then 2 else 1
  let chunks := joinEmpty (closeChunks (chunksFrom least [] t))
  match chunks with
  | (.char '!' :: c) :: rest =>
    let hyphen := if c.isEmpty && !rest.isEmpty then [.char '-'] else []
    ⟨true, hyphen ++ (c :: rest).flatten, rangesOf (c :: rest)⟩
  | chunks => ⟨false, chunks.flatten, rangesOf chunks⟩

end CharacterSet

/-- A part of the pattern of a name. -/
inductive Wildcard where
  | any
  | one
  | oneOf (s : CharacterSet)
  | exactly (p : CodePoint)
  deriving DecidableEq, Repr

namespace Wildcard

/-- Whether a part stands for a single code point. -/
def admits (p : CodePoint) : Wildcard → Bool
  | .any | .one => true
  | .oneOf s => s.contains p
  | .exactly q => p == q

/-- Whether a name has the form of a pattern. -/
def fits : List Wildcard → Text → Bool
  | [], t => t.isEmpty
  | .any :: ws, [] => fits ws []
  | .any :: ws, p :: t => fits ws (p :: t) || fits (.any :: ws) t
  | _ :: _, [] => false
  | w :: ws, p :: t => w.admits p && fits ws t
termination_by ws t => ws.length + t.length

/-- The characters up to the bracket that closes a set, and what follows it. A bracket at the
beginning is part of the set. -/
def closed? (t : Text) : Option (Text × Text) :=
  let mark := if t.head? = some (.char '!') then 1 else 0
  let first := if (t.drop mark).head? = some (.char ']') then mark + 1 else mark
  let inside := (t.drop first).takeWhile fun p => !p.isChar ']'
  match t.drop (first + inside.length) with
  | _ :: rest => some (t.take (first + inside.length), rest)
  | [] => none

/-- The parts of a pattern of at most `fuel` code points. -/
def partsFrom : (fuel : Nat) → Text → List Wildcard
  | 0, _ => []
  | _, [] => []
  | fuel + 1, p :: t =>
    if p.isChar '*' then .any :: partsFrom fuel t
    else if p.isChar '?' then .one :: partsFrom fuel t
    else if p.isChar '[' then
      match closed? t with
      | some (inside, rest) => .oneOf (CharacterSet.ofText inside) :: partsFrom fuel rest
      | none => .exactly p :: partsFrom fuel t
    else .exactly p :: partsFrom fuel t

/-- The parts of the pattern of a name. -/
def parts (t : Text) : List Wildcard := partsFrom t.length t

end Wildcard

/-- A name in the pattern of a path. -/
inductive Segment where
  | name (n : Text)
  /-- A name of a form; `hidden` if it begins with a dot. -/
  | form (ws : List Wildcard) (hidden : Bool)
  /-- Any folders, or anything below them at the end of a pattern. -/
  | folders
  deriving DecidableEq, Repr

namespace Segment

def isHidden (n : Text) : Bool := n.head? = some (.char '.')

/-- Whether text is a pattern and not just a name. -/
def isPattern (t : Text) : Bool := t.any fun p => p.isChar '*' || p.isChar '?' || p.isChar '['

/-- The pattern that a text writes. -/
def ofText (t : Text) : Segment :=
  if t = .ofString "**" then .folders
  else if isPattern t then .form (Wildcard.parts t) (isHidden t)
  else .name t

/-- The names that a segment stands for at the end of names that lead to a folder. -/
def expand (t : FileTree) (start : Place) (before : List Text) : Segment → List (List Text)
  | .name n => if (t.locate start (before ++ [n])).isOk then [[n]] else []
  | .form ws hidden =>
    match t.locate start before with
    | .ok (p, .folder) =>
      ((t.names p).filter fun n => (hidden || !isHidden n) && Wildcard.fits ws n).map ([·])
    | _ => []
  | .folders =>
    match t.locate start before with
    | .ok (p, .folder) => [] :: (t.below p).filter fun names => !names.any isHidden
    | _ => []

end Segment

/-- A pattern for paths, part by part. -/
structure Pattern where
  anchor : Anchor
  segments : List Segment
  /-- A slash at the end: folders alone are found. -/
  forFolders : Bool
  deriving DecidableEq, Repr

namespace Pattern

def ofText (t : Text) : Pattern :=
  { anchor := Path.anchorOf t
    segments := ((Path.segments t).filter (· ≠ [])).map Segment.ofText
    forFolders := t.getLast? = some (.char '/') }

/-- The names that segments stand for after names that lead to a folder. -/
def expandFrom (t : FileTree) (start : Place) (before : List Text) : List Segment → List (List Text)
  | [] => [before]
  | s :: rest =>
    (s.expand t start before).flatMap fun names => expandFrom t start (before ++ names) rest

/-- The files that a pattern finds from a working folder, each with the names that lead to it. -/
def filesOf (p : Pattern) (t : FileTree) (working : Place) : List (List Text × Place) :=
  if p.forFolders then []
  else
    let start := FileTree.start working p.anchor
    (expandFrom t start [] p.segments).filterMap fun names =>
      match t.locate start names with
      | .ok (place, .file) => some (names, place)
      | _ => none

end Pattern

end Localization
