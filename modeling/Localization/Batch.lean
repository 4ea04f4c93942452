import Localization.Text

/-! Batches: items in order, grouped so that no request to a service gets too large. The size of an
item is counted once for each language of the request. -/

namespace Localization

/-- A text under the key of its message. -/
structure Item where
  key : Text
  text : List Char
  deriving DecidableEq, Repr

/-- The caps of a service on what one request may hold. -/
structure Limits where
  maxItemSize : Int := 50000
  maxItems : Int := 1000
  maxRequestSize : Int := 50000
  deriving DecidableEq, Repr

/-- Items that go to a service in one request. -/
structure Batch where
  /-- The place among the batches, counted from 1. -/
  number : Nat
  items : List Item
  size : Int
  start : Nat
  deriving DecidableEq, Repr

namespace Batch

/-- The items up to its end in all batches. -/
def stop (b : Batch) : Nat := b.start + b.items.length

/-- The size of an item in a request for several languages. -/
def itemSize (languages : Int) (i : Item) : Int := i.text.length * languages

/-- Whether an item goes into a batch that is not empty. -/
def admits (l : Limits) (languages : Int) (b : Batch) (i : Item) : Bool :=
  b.size + itemSize languages i ≤ l.maxRequestSize && (b.items.length : Int) != l.maxItems

def push (languages : Int) (b : Batch) (i : Item) : Batch :=
  { b with items := b.items ++ [i], size := b.size + itemSize languages i }

/-- The batch of an item after the batches before it. -/
def single (languages : Int) (number start : Nat) (i : Item) : Batch :=
  ⟨number, [i], itemSize languages i, start⟩

/-- The batches of items after the items of `current`. -/
def fill (l : Limits) (languages : Int) (current : Batch) : List Item → List Batch
  | [] => [current]
  | i :: rest =>
    if admits l languages current i then fill l languages (current.push languages i) rest
    else current :: fill l languages (single languages (current.number + 1) current.stop i) rest

/-- The batches of items that are small enough. -/
def group (l : Limits) (languages : Int) : List Item → List Batch
  | [] => []
  | i :: rest => fill l languages (single languages 1 0 i) rest

/-- The first item that is longer than any request may hold. -/
def tooLarge? (l : Limits) (items : List Item) : Option Item :=
  items.find? fun i => l.maxItemSize < i.text.length

/-- The batches of items, or the first item that is too large. -/
def ofItems (l : Limits) (languages : Int) (items : List Item) : Except Item (List Batch) :=
  match tooLarge? l items with
  | some i => .error i
  | none => .ok (group l languages items)

/-- What is said of an item that is too large. -/
def tooLargeMessage (i : Item) : Text :=
  .ofString "Failed to translate. Item is too large: " ++ .ofChars i.text

/-- What a report tells of the batches of one run. -/
structure Figures where
  batches : Nat
  items : Nat
  size : Int
  /-- The size of a batch on average, rounded down. -/
  average : Int
  least : Int
  most : Int
  deriving DecidableEq, Repr

def figures (bs : List Batch) : Figures :=
  let sizes := bs.map Batch.size
  let total := sizes.foldr (· + ·) 0
  { batches := bs.length
    items := bs.foldr (fun b n => b.items.length + n) 0
    size := total
    average := total / bs.length
    least := (sizes.min?).getD 0
    most := (sizes.max?).getD 0 }

end Batch

end Localization
