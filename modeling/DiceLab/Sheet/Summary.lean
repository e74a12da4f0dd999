import DiceLab.Catalog
import DiceLab.Outcome
import DiceLab.Stats

/-! The statistics of a formula and the outcome of a roll, each as one line. -/

namespace DiceLab.Sheet

/-- Marked-up text in a style. -/
def styled (style text : Text) : Text := "[" ++ style ++ "]" ++ text ++ "[/]"

/-- The blank columns around a summary unless others are asked for. -/
def usualPadding : Int := 2

/-- The range and the mean as a line. -/
def statsText (stats : Stats) (wording : Wording) : Reported Text := do
  let low ← Reported.write stats.min
  let high ← Reported.write stats.max
  wording.text "stats.summary" [
    ("min", .text (styled "red" low)), ("max", .text (styled "green" high)),
    ("average", .text (styled "yellow" (Decimal.fixedText 2 stats.average)))]

/-- Shows the statistics of a formula behind its text. -/
def showStats (formula : Text) (stats : Stats) (wording : Wording) (padding : Int) :
    Reported Unit := do
  let line ← statsText stats wording
  Reported.print (.padded (styled "bold cyan" formula ++ ": " ++ line) padding)

/-- The total of a roll and its breakdown as a line. -/
def outcomeText (outcome : Outcome) (wording : Wording) : Reported Text := do
  let total ← Reported.write outcome.total
  let breakdown ← outcome.describe
  wording.text "roll.result" [
    ("total", .text (styled "bold yellow" total)), ("breakdown", .text breakdown)]

/-- Shows the outcome of a roll. -/
def showOutcome (outcome : Outcome) (wording : Wording) : Reported Unit := do
  let line ← outcomeText outcome wording
  Reported.print (.padded line usualPadding)

end DiceLab.Sheet
