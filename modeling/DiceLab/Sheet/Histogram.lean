import DiceLab.Histogram
import DiceLab.Decimal.Real
import DiceLab.Sheet.Bar
import DiceLab.Sheet.Item

/-! Histograms as tables: each total with its frequency, its share of all, and a bar. -/

namespace DiceLab.Sheet

/-- The heads of a histogram table. -/
def histogramColumns : List Column := [
  ⟨"Roll", "cyan", .right⟩, ⟨"Count", "", .right⟩, ⟨"%", "magenta", .right⟩, ⟨"", "", .left⟩]

/-- The length of the longest bar unless another one is asked for. -/
def barLength : Int := 40

/-- The percentage of a frequency in the sum of all; of nothing it is zero. -/
def percentage (frequency total : Number) : Except Failure Binary64 := do
  if total.isZero then return Binary64.zero false
  return (← frequency.div total).mul (Binary64.ofInt 100)

/-- The row of a total. -/
def histogramRow (sum peak : Number) (length : Int) (entry : Int × Number) :
    Except Failure (List Text) := do
  let share ← percentage entry.2 sum
  let total ← Decimal.write entry.1
  let frequency ← entry.2.toReal
  let drawn ← bar entry.2 peak length "blue"
  return [total, Decimal.compactText frequency, Decimal.fixedText 1 share, drawn]

/-- A title, unless there is nothing in it. -/
def titled (title : Text) : Option Text := if title.isEmpty then none else some title

/-- The table of a histogram by ascending total; the greatest frequency fills its bar. -/
def histogramTable (histogram : Histogram) (title : Text) (length : Int) :
    Except Failure Table := do
  let entries := Histogram.sorted histogram
  let frequencies := entries.map Prod.snd
  let sum ← Number.sum frequencies
  let rows ← entries.mapM (histogramRow sum (Number.greatest frequencies) length)
  return ⟨titled title, histogramColumns, rows⟩

end DiceLab.Sheet
