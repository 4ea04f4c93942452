import Localization.Markdown.Character

/-! The blocks of a document. -/

namespace Localization.Markdown

/-- How the cells of a column are aligned. -/
inductive Alignment where
  | unset | left | center | right
  deriving Repr, DecidableEq

/-- A block. What stands in it as text is read once the definitions of the whole document are
known. -/
inductive Block where
  | paragraph (text : List Char)
  | heading (level : Nat) (text : List Char)
  | rule
  /-- Code that is indented, or fenced with a remark on its language. -/
  | code (fence : Option (List Char)) (text : List Char)
  | quote (blocks : List Block)
  /-- A list, numbered if `start` is given. The paragraphs of a tight one are not set apart. -/
  | items (start : Option Nat) (tight : Bool) (items : List (List Block))
  | table (columns : List Alignment) (head : List (List Char)) (rows : List (List (List Char)))

end Localization.Markdown
