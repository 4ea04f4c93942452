import Localization.Json.Decimal
import Localization.Text

/-! Values of a data file, and maps that keep the order in which their keys were first put. -/

namespace Localization

/-- A value. A number that is not written as an integer keeps its characters. -/
inductive Json where
  | null
  | bool (b : Bool)
  | integer (n : Int)
  | decimal (cs : List Char)
  | string (t : Text)
  | array (items : List Json)
  | object (fields : List (Text × Json))
  deriving Repr, Inhabited

namespace Json

mutual

/-- Values are compared part by part. -/
def decEq : (v w : Json) → Decidable (v = w)
  | .null, .null => isTrue rfl
  | .bool a, .bool b => decidable_of_iff (a = b) (by simp)
  | .integer m, .integer n => decidable_of_iff (m = n) (by simp)
  | .decimal cs, .decimal ds => decidable_of_iff (cs = ds) (by simp)
  | .string t, .string u => decidable_of_iff (t = u) (by simp)
  | .array vs, .array ws =>
    have := decEqItems vs ws
    decidable_of_iff (vs = ws) (by simp)
  | .object fs, .object gs =>
    have := decEqFields fs gs
    decidable_of_iff (fs = gs) (by simp)
  | .null, .bool _ | .null, .integer _ | .null, .decimal _ | .null, .string _ | .null, .array _
  | .null, .object _ | .bool _, .null | .bool _, .integer _ | .bool _, .decimal _
  | .bool _, .string _ | .bool _, .array _ | .bool _, .object _ | .integer _, .null
  | .integer _, .bool _ | .integer _, .decimal _ | .integer _, .string _ | .integer _, .array _
  | .integer _, .object _ | .decimal _, .null | .decimal _, .bool _ | .decimal _, .integer _
  | .decimal _, .string _ | .decimal _, .array _ | .decimal _, .object _ | .string _, .null
  | .string _, .bool _ | .string _, .integer _ | .string _, .decimal _ | .string _, .array _
  | .string _, .object _ | .array _, .null | .array _, .bool _ | .array _, .integer _
  | .array _, .decimal _ | .array _, .string _ | .array _, .object _ | .object _, .null
  | .object _, .bool _ | .object _, .integer _ | .object _, .decimal _ | .object _, .string _
  | .object _, .array _ => isFalse nofun

/-- Items are compared one by one. -/
def decEqItems : (vs ws : List Json) → Decidable (vs = ws)
  | [], [] => isTrue rfl
  | v :: vs, w :: ws =>
    have := decEq v w
    have := decEqItems vs ws
    decidable_of_iff (v = w ∧ vs = ws) (by simp)
  | [], _ :: _ | _ :: _, [] => isFalse nofun

/-- Fields are compared one by one, in their order. -/
def decEqFields : (fs gs : List (Text × Json)) → Decidable (fs = gs)
  | [], [] => isTrue rfl
  | (k, v) :: fs, (l, w) :: gs =>
    have := decEq v w
    have := decEqFields fs gs
    decidable_of_iff ((k = l ∧ v = w) ∧ fs = gs) (by simp)
  | [], _ :: _ | _ :: _, [] => isFalse nofun

end

instance : DecidableEq Json := decEq

end Json

/-- A map as its entries in order. Keys are distinct in every map that `put` builds. -/
abbrev Fields (β : Type) := List (Text × β)

namespace Fields

variable {β : Type}

/-- The value at a key. -/
def get? (key : Text) : Fields β → Option β
  | [] => none
  | (k, v) :: rest => if k = key then some v else get? key rest

/-- Puts a value at a key: in place if the key is there, else at the end. -/
def put (key : Text) (value : β) : Fields β → Fields β
  | [] => [(key, value)]
  | (k, v) :: rest => if k = key then (k, value) :: rest else (k, v) :: put key value rest

/-- The keys of a map in their order. -/
def keys (m : Fields β) : List Text := m.map (·.1)

/-- The map of a list of entries: a repeated key keeps its first place and takes its last value. -/
def ofList (entries : List (Text × β)) : Fields β :=
  entries.foldl (fun m e => m.put e.1 e.2) []

@[simp] theorem get?_nil (key : Text) : get? key ([] : Fields β) = none := rfl

/-- What is found after a value is put. -/
theorem get?_put (k key : Text) (v : β) (m : Fields β) :
    (m.put k v).get? key = if k = key then some v else m.get? key := by
  induction m with
  | nil => simp [put, get?]
  | cons e rest ih =>
    obtain ⟨a, b⟩ := e
    by_cases h : a = k
    · subst h
      by_cases h2 : a = key <;> simp [put, get?, h2]
    · by_cases h2 : a = key
      · subst h2
        simp [put, get?, h, Ne.symm h]
      · simp [put, get?, h, h2, ih]

theorem keys_put (k : Text) (v : β) (m : Fields β) :
    keys (m.put k v) = if k ∈ keys m then keys m else keys m ++ [k] := by
  induction m with
  | nil => simp [put, keys]
  | cons e rest ih =>
    obtain ⟨a, b⟩ := e
    by_cases h : a = k
    · simp [put, keys, h]
    · have step : keys (put k v ((a, b) :: rest)) = a :: keys (put k v rest) := by
        simp [put, keys, h]
      rw [step, ih]
      by_cases hk : k ∈ keys rest
      · have : k ∈ keys ((a, b) :: rest) := List.mem_cons_of_mem _ hk
        rw [if_pos hk, if_pos this]; rfl
      · have : k ∉ keys ((a, b) :: rest) := by
          intro hm
          rcases List.mem_cons.1 hm with e | e
          · exact h e.symm
          · exact hk e
        rw [if_neg hk, if_neg this]; rfl

end Fields

namespace Json

/-- Whether a value counts as present: not null, false, zero or empty. -/
def isPresent : Json → Bool
  | .null => false
  | .bool b => b
  | .integer n => n ≠ 0
  | .decimal cs => !(Decimal.ofChars cs).isZero
  | .string t => !t.isEmpty
  | .array xs => !xs.isEmpty
  | .object fs => !fs.isEmpty

/-- The value of a field of an object. -/
def field? (name : String) : Json → Option Json
  | .object fs => Fields.get? (Text.ofString name) fs
  | _ => none

/-- The items that a value consists of: those of an array, the code points of a string, the keys of
an object. -/
def items? : Json → Option (List Json)
  | .array xs => some xs
  | .string t => some (t.map fun p => .string [p])
  | .object fs => some (fs.map fun f => .string f.1)
  | _ => none

/-- The text of a string. -/
def string? : Json → Option Text
  | .string t => some t
  | _ => none

end Json

end Localization
