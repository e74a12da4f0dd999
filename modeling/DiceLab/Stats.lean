import DiceLab.Formula.Reading

/-! The exact range of a formula's totals, and its mean in binary64. -/

namespace DiceLab

/-- The smallest and largest total, and the mean total. -/
structure Stats where
  min : Int
  max : Int
  average : Binary64
deriving DecidableEq

/-- The width of the range. -/
def Stats.span (stats : Stats) : Int := stats.max - stats.min

namespace Term

/-- What a term adds to both ends of the range; dice taken away swap the ends of their face. -/
def range (term : Term) : Int × Int :=
  let low := term.count * term.face.low
  let high := term.count * term.face.high
  match term.sign with
  | .plus => (low, high)
  -- The least that is taken away leaves the most behind.
  | .minus => (-high, -low)

/-- What a term adds to the mean: the signed number of dice times the mean of the face. -/
def average (term : Term) : Except Failure Binary64 := do
  let mean ← term.face.mean
  return (← wholeToReal (term.sign.factor * term.count)).mul mean

end Term

namespace Formula

/-- The smallest total. -/
def min (formula : Formula) : Int :=
  formula.modifier + wholeTotal (formula.terms.map fun term => term.range.1)

/-- The largest total. -/
def max (formula : Formula) : Int :=
  formula.modifier + wholeTotal (formula.terms.map fun term => term.range.2)

/-- The mean total: the terms are added to the modifier in order, rounding each time. -/
def average (formula : Formula) : Except Failure Binary64 := do
  formula.terms.foldlM (fun total term => do return total.add (← term.average))
    (← wholeToReal formula.modifier)

/-- The range and the mean of a formula. -/
def stats (formula : Formula) : Except Failure Stats := do
  return ⟨formula.min, formula.max, ← formula.average⟩

end Formula

end DiceLab
