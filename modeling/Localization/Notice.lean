import Localization.Text

/-! What a run reports besides its result. -/

namespace Localization

inductive Level where
  | debug
  | info
  | warning
  deriving DecidableEq, Repr

namespace Level

def name : Level → String
  | .debug => "DEBUG"
  | .info => "INFO"
  | .warning => "WARNING"

def rank : Level → Nat
  | .debug => 0
  | .info => 1
  | .warning => 2

end Level

/-- A notice, with the part of the program that gives it. -/
structure Notice where
  level : Level
  source : String
  text : Text
  deriving Repr

namespace Notice

def line (n : Notice) : Text :=
  Text.ofString (n.level.name ++ " " ++ n.source ++ ": ") ++ n.text

/-- The notices of a level and above. -/
def atLeast (l : Level) (ns : List Notice) : List Notice :=
  ns.filter fun n => l.rank ≤ n.level.rank

end Notice

end Localization
