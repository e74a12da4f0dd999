import DiceLab.Distribution
import DiceLab.Sheet.Histogram
import DiceLab.Sheet.Summary

/-! The distribution of a formula as a titled table. -/

namespace DiceLab.Sheet

/-- The title of a distribution: an exact one names the formula alone, any other the rolls as
well. -/
def distributionTitle (formula : Formula) (runs : Value) (wording : Wording) : Reported Text := do
  let text ← formula.text
  if formula.isSingleDie then wording.text "simulation.theoretical" [("macro", .text text)]
  else wording.text "simulation.title" [("macro", .text text), ("runs", runs)]

/-- Shows the distribution of what a draft stands for, each value drawn from a state, and gives it. -/
@[specialize] def showDistributionFrom {σ : Type} (draw : Face → σ → Int × σ) (draft : Draft)
    (runs : Value) (wording : Wording) : Session σ Histogram := do
  let reading ← (draft.read : Reported Reading)
  let title ← (distributionTitle reading.formula runs wording : Reported Text)
  let histogram ← distributionFrom draw reading runs
  let table ← (histogramTable histogram title barLength : Except Failure Table)
  (Reported.print (.table table) : Reported Unit)
  return histogram

/-- Shows the distribution of what a draft stands for when it is rolled with dice. -/
def showDistribution (draft : Draft) (runs : Value) (wording : Wording) :
    Session Dice Histogram :=
  showDistributionFrom Dice.draw draft runs wording

end DiceLab.Sheet
