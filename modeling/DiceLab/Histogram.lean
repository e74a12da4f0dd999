import DiceLab.Decimal.Digits
import DiceLab.Number
import DiceLab.Sorting

/-! Histograms: how often each total occurs, or how much weight it has. -/

namespace DiceLab

/-- Totals with their frequencies, in order. -/
abbrev Histogram := List (Int × Number)

namespace Histogram

/-- Counts one more occurrence of the smallest total. -/
def addRun (total : Int) : List (Int × Nat) → List (Int × Nat)
  | [] => [(total, 1)]
  | (first, count) :: rest =>
    if first = total then (first, count + 1) :: rest else (total, 1) :: (first, count) :: rest

/-- How often each of some totals occurs, by ascending total. -/
def tally (totals : List Int) : List (Int × Nat) :=
  -- Equal totals stand together once they are sorted, so counting their runs counts them all.
  (totals.mergeSort fun first second => first ≤ second).foldr addRun []

/-- Counts as frequencies. -/
def ofCounts (counts : List (Int × Nat)) : Histogram :=
  counts.map fun entry => (entry.1, .whole entry.2)

/-- Whether one entry is less than another: by total, then by frequency. -/
def less (first second : Int × Number) : Bool :=
  if first.1 = second.1 then first.2.lt second.2 else first.1 < second.1

/-- The entries in ascending order. -/
def sorted (entries : Histogram) : Histogram := Sorting.sort less entries

/-- What an entry may be labelled with in place of a total. -/
inductive Label where
  | number (value : Number)
  | text (value : Text)

namespace Label

/-- Whether two labels are one: numbers by value, texts by their code points. -/
def same : Label → Label → Bool
  | .number left, .number right => left.sameValue right
  | .text left, .text right => left == right
  | _, _ => false

/-- The total that a label stands for: fractions are dropped and texts are read. -/
def total : Label → Except Failure Int
  | .number (.whole value) => .ok value
  | .number (.real value) => value.truncate
  | .text value => Decimal.parse value

end Label

/-- Adds an entry; one whose label is known keeps its place and takes the new frequency. -/
def storeLabel (entries : List (Label × Number)) (entry : Label × Number) :
    List (Label × Number) :=
  if entries.any fun old => old.1.same entry.1 then
    entries.map fun old => if old.1.same entry.1 then (old.1, entry.2) else old
  else entries ++ [entry]

/-- The entries under the totals of their labels, a repeated label counting once. -/
def ofLabels (entries : List (Label × Number)) : Except Failure Histogram :=
  (entries.foldl storeLabel []).mapM fun entry => do return (← entry.1.total, entry.2)

end Histogram

end DiceLab
