import DiceLab.Text

/-! The things a session shows, in marked-up text that a display may style. -/

namespace DiceLab.Sheet

/-- On which side of its column a cell stands. -/
inductive Justify where
  | left
  | right
deriving DecidableEq, Repr

/-- The head of a table column. -/
structure Column where
  header : Text
  style : Text
  justify : Justify
deriving DecidableEq, Repr

/-- A table of marked-up cells. -/
structure Table where
  title : Option Text
  columns : List Column
  rows : List (List Text)
deriving DecidableEq, Repr

/-- One thing shown. -/
inductive Item where
  | text (markup : Text)
  /-- A line with blank columns on both sides. -/
  | padded (markup : Text) (padding : Int)
  /-- A line across the display with a title. -/
  | rule (title style : Text)
  | table (content : Table)
deriving DecidableEq, Repr

end DiceLab.Sheet
