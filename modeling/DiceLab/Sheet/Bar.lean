import DiceLab.Number
import DiceLab.Text

/-! Bars of cells: a quantity is drawn in proportion to the quantity that fills the bar. -/

namespace DiceLab.Sheet

/-- A filled cell. -/
def fullCell : CodePoint := '█'

/-- An empty cell. -/
def emptyCell : CodePoint := '░'

/-- The number of filled cells: the share of the peak in cells, rounded to even and held within the
bar; without a positive peak there is none. -/
def filledCells (value peak : Number) (width : Int) : Except Failure Int := do
  if peak.le (.whole 0) then return 0
  let cells ← ((← value.div peak).mul (← wholeToReal width)).roundEven
  return max 0 (min width cells)

/-- Positions stay below this number, and above its negative or on it. -/
def positionEnd : Int := twoTo 63

/-- The most cells that there is room for. -/
def mostCells : Int := twoTo 32

/-- Repeats a cell; fewer than none is none. -/
def cells (cell : CodePoint) (count : Int) : Except Failure Text :=
  if count < -positionEnd ∨ positionEnd ≤ count then .error .beyondPositions
  else if mostCells < count then .error .outOfRoom
  else .ok (List.replicate count.toNat cell)

/-- Draws a quantity as a bar with filled cells in a colour. -/
def bar (value peak : Number) (width : Int) (color : Text) : Except Failure Text := do
  let filled ← filledCells value peak width
  let full ← cells fullCell filled
  let empty ← cells emptyCell (width - filled)
  return "[" ++ color ++ "]" ++ full ++ "[/][dim]" ++ empty ++ "[/]"

end DiceLab.Sheet
