import DiceLab.Fit
import DiceLab.Shape

/-! Formulas scored against a target range, ranked without repetitions. -/

namespace DiceLab

/-- A formula in its normal text with everything known about it. -/
structure Candidate where
  text : Text
  stats : Stats
  fitScore : Binary64
  fit : Fit
  shapeScore : Binary64
  shape : Shape
deriving DecidableEq

namespace Candidate

/-- Scores a formula: its range first, then fit, shape and text. -/
def ofFormula (formula : Formula) (target : Target) : Except Failure Candidate := do
  let stats ← formula.stats
  let fitScore ← Fit.score stats target
  let shapeScore ← Shape.score formula
  -- The text comes last, so a formula without scores fails for these and not for its text.
  let text ← formula.text
  return {
    text, stats, fitScore, shapeScore
    fit := Fit.classify stats target (.real fitScore)
    shape := Shape.classify (.real shapeScore) }

/-- Scores what a draft stands for. -/
def ofDraft (draft : Draft) (target : Target) : Reported Candidate := do
  let reading ← draft.read
  ofFormula reading.formula target

/-- Whether one candidate may stand before another: the better fit, then the flatter shape, then the
smaller text. -/
def inOrder (first second : Candidate) : Bool :=
  if second.fitScore.lt first.fitScore then true
  else if first.fitScore.lt second.fitScore then false
  else if first.shapeScore.lt second.shapeScore then true
  else if second.shapeScore.lt first.shapeScore then false
  else first.text.inOrder second.text

/-- The candidates without those whose text was seen before. -/
def distinct (candidates : List Candidate) : List Candidate :=
  candidates.eraseDupsBy fun first second => first.text == second.text

/-- The distinct candidates in order, at most so many. -/
def best (limit : Nat) (candidates : List Candidate) : List Candidate :=
  ((distinct candidates).mergeSort inOrder).take limit

/-- The number of candidates kept when nobody asks for another number. -/
def defaultLimit : Int := 12

/-- Ranks drafts against a target; the limit is brought into range first. -/
def rank (drafts : List Draft) (target : Target) (limit : Value) : Reported (List Candidate) := do
  let kept ← ensureWhole "max_candidates" 1 none none limit
  let candidates ← drafts.mapM fun draft => ofDraft draft target
  return best kept.toNat candidates

end Candidate

end DiceLab
