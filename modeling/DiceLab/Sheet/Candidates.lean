import DiceLab.Candidate
import DiceLab.Sheet.Summary

/-! Ranked candidates as a table. -/

namespace DiceLab.Sheet

/-- The keys of the heads behind the first one, with the style and the side of each column. -/
def candidateColumns : List (Text × Text × Justify) := [
  ("table.macro", "bold", .left), ("table.min", "", .right), ("table.max", "", .right),
  ("table.average", "", .right), ("table.fit", "", .left), ("table.shape", "blue", .left)]

/-- The head of the column with the ranks. -/
def rankColumn : Column := ⟨"#", "cyan", .left⟩

/-- The row of the candidate at a rank. -/
def candidateRow (wording : Wording) (rank : Nat) (candidate : Candidate) :
    Reported (List Text) := do
  let low ← Reported.write candidate.stats.min
  let high ← Reported.write candidate.stats.max
  let fit ← wording.label candidate.fit.key
  let score := Decimal.fixedText 0 candidate.fitScore
  let shape ← wording.label candidate.shape.key
  return [toString rank, candidate.text, low, high, Decimal.fixedText 2 candidate.stats.average,
    styled candidate.fit.color (fit ++ " (" ++ score ++ ")"), shape]

/-- The table of candidates in their order. -/
def candidatesTable (candidates : List Candidate) (wording : Wording) : Reported Table := do
  let title ← wording.label "table.combinations"
  let columns ← candidateColumns.mapM fun (key, style, justify) => do
    return (⟨← wording.label key, style, justify⟩ : Column)
  let rows ← (candidates.zipIdx 1).mapM fun (candidate, rank) => candidateRow wording rank candidate
  return ⟨some title, rankColumn :: columns, rows⟩

/-- Shows the table of candidates, or a line when there are none. -/
def showCandidates (candidates : List Candidate) (wording : Wording) : Reported Unit := do
  if candidates.isEmpty then
    Reported.print (.text (styled "yellow" (← wording.label "generate.empty")))
  else Reported.print (.table (← candidatesTable candidates wording))

end DiceLab.Sheet
