import DiceLab.Number
import DiceLab.Decimal.Digits

/-! Faces of dice: numeric ones with any number of sides, the two-sided coin, and the Fudge die. -/

namespace DiceLab

/-- What one die can show. -/
inductive Face where
  | numeric (sides : Nat) (positive : 0 < sides)
  | fudge
deriving DecidableEq

namespace Face

/-- The numeric face with a number of sides, when there is at least one. -/
def ofSides? (sides : Int) : Option Face :=
  if positive : 0 < sides.toNat then some (.numeric sides.toNat positive) else none

/-- Whether the die is a Fudge die. -/
def isFudge : Face → Bool
  | .fudge => true
  | .numeric _ _ => false

/-- The number of sides of the die that shows 0 or 1. -/
def binarySides : Nat := 2

/-- Whether the die is the two-sided one, which shows 0 or 1. -/
def isBinary : Face → Bool
  | .numeric sides _ => sides == binarySides
  | .fudge => false

/-- The number of sides of a numeric die. -/
def sides? : Face → Option Nat
  | .numeric sides _ => some sides
  | .fudge => none

/-- The smallest value shown. -/
def low : Face → Int
  | .fudge => -1
  -- Two sides show heads or tails and not one or two.
  | .numeric sides _ => if sides = binarySides then 0 else 1

/-- The largest value shown. -/
def high : Face → Int
  | .fudge => 1
  | .numeric sides _ => if sides = binarySides then 1 else sides

/-- The smallest value is not above the largest. -/
theorem low_le_high (face : Face) : face.low ≤ face.high := by
  cases face with
  | fudge => decide
  | numeric sides positive =>
    simp only [low, high]
    split <;> omega

/-- How many values the die can show. -/
def count (face : Face) : Nat := (face.high - face.low + 1).toNat

/-- Every value the die can show, in ascending order. -/
def values (face : Face) : List Int :=
  (List.range face.count).map fun (step : Nat) => face.low + step

/-- The mean of the smallest and the largest value. -/
def mean (face : Face) : Except Failure Binary64 := wholeQuotient (face.low + face.high) 2

/-- The letter that stands for the Fudge die in place of a number of sides. -/
def fudgeLetter : Char := 'F'

/-- The number of sides, or the letter of the Fudge die. -/
def sidesText : Face → Text
  | .fudge => [fudgeLetter]
  | .numeric sides _ => Decimal.naturalText sides

/-- The text of one die. -/
def tagText (face : Face) : Text := 'd' :: face.sidesText

/-- Whether the number of sides is short enough to be written. -/
def Writable : Face → Prop
  | .fudge => True
  | .numeric sides _ => Decimal.Writable sides

instance (face : Face) : Decidable face.Writable := by
  cases face <;> unfold Writable <;> infer_instance

/-- Writes one die. -/
def tag (face : Face) : Except Failure Text :=
  if face.Writable then .ok face.tagText else .error .tooLongToWrite

end Face

end DiceLab
