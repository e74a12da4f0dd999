import DiceLab.Stats

/-! How well a range of totals fits a target range. -/

namespace DiceLab

/-- The range of totals that is asked for. -/
structure Target where
  min : Int
  max : Int
deriving DecidableEq, Repr

/-- The target with its ends in order. -/
def Target.ordered (target : Target) : Target :=
  ⟨Min.min target.min target.max, Max.max target.min target.max⟩

/-- How a range relates to a target range. -/
inductive Fit where
  | perfect
  | close
  | contained
  | wider
  | exceedsLow
  | exceedsHigh
  | noOverlap
deriving DecidableEq, Repr

namespace Fit

/-- Every relation. -/
def all : List Fit := [perfect, close, contained, wider, exceedsLow, exceedsHigh, noOverlap]

/-- The word for a relation in data. -/
def value : Fit → String
  | .perfect => "perfect"
  | .close => "close"
  | .contained => "contained"
  | .wider => "wider"
  | .exceedsLow => "exceedsLow"
  | .exceedsHigh => "exceedsHigh"
  | .noOverlap => "noOverlap"

/-- The capitalised name of a relation. -/
def name : Fit → String
  | .perfect => "PERFECT"
  | .close => "CLOSE"
  | .contained => "CONTAINED"
  | .wider => "WIDER"
  | .exceedsLow => "EXCEEDS_LOW"
  | .exceedsHigh => "EXCEEDS_HIGH"
  | .noOverlap => "NO_OVERLAP"

/-- The colour in which a relation is shown. -/
def color : Fit → String
  | .perfect => "bold green"
  | .close => "green"
  | .contained => "cyan"
  | .wider => "yellow"
  | .exceedsLow => "magenta"
  | .exceedsHigh => "magenta"
  | .noOverlap => "red"

/-- The key under which a relation is shown. -/
def key (fit : Fit) : String := "fit." ++ fit.value

/-- The relation with a given word. -/
def ofValue? (word : Text) : Option Fit := all.find? fun fit => fit.value == word

/-- How far the ends of a range are from those of the target. -/
def deviation (stats : Stats) (target : Target) : Nat :=
  (target.min - stats.min).natAbs + (target.max - stats.max).natAbs

/-- The width against which a deviation is measured: that of the target, and at least one. -/
def width (target : Target) : Int := max (target.max - target.min) 1

/-- The best score. -/
def best : Binary64 := Binary64.ofInt 100

/-- The score of a range from 0 to 100: the best for an exact match, less as the ends drift apart.
-/
def score (stats : Stats) (target : Target) : Except Failure Binary64 := do
  let share ← wholeQuotient (deviation stats target) (width target)
  let closeness := ((Binary64.ofInt 1).sub share).mul best
  return Binary64.clamp (Binary64.zero false) best closeness

/-- The score from which a range counts as close. -/
def closeScore : Number := .whole 90

/-- The first relation that holds, from the best match to none. -/
def classify (stats : Stats) (target : Target) (score : Number) : Fit :=
  if stats.min = target.min ∧ stats.max = target.max then .perfect
  -- A close fit is told by the score, wherever its range lies.
  else if closeScore.le score then .close
  else if stats.min ≥ target.min ∧ stats.max ≤ target.max then .contained
  else if stats.min ≤ target.min ∧ stats.max ≥ target.max then .wider
  else if stats.min < target.min ∧ stats.max ≥ target.min then .exceedsLow
  else if stats.max > target.max ∧ stats.min ≤ target.max then .exceedsHigh
  else .noOverlap

end Fit

end DiceLab
