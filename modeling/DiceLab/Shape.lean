import DiceLab.Formula.Reading

/-! How peaked the distribution of a formula is, estimated from the number and the kinds of its
dice. -/

namespace DiceLab

/-- The approximate shape of a distribution. -/
inductive Shape where
  | bell
  | somewhatBell
  | flat
deriving DecidableEq, Repr

namespace Shape

/-- Every shape. -/
def all : List Shape := [bell, somewhatBell, flat]

/-- The word for a shape in data. -/
def value : Shape → String
  | .bell => "bell"
  | .somewhatBell => "somewhatBell"
  | .flat => "flat"

/-- The capitalised name of a shape. -/
def name : Shape → String
  | .bell => "BELL"
  | .somewhatBell => "SOMEWHAT_BELL"
  | .flat => "FLAT"

/-- The key under which a shape is shown. -/
def key (shape : Shape) : String := "distribution." ++ shape.value

/-- The shape with a given word. -/
def ofValue? (word : Text) : Option Shape := all.find? fun shape => shape.value == word

/-- What each die past the first adds: one half. -/
def diceWeight : Binary64 := Binary64.ofDecimal false 5 (-1)

/-- What each distinct face past the first adds: one tenth. -/
def varietyBonus : Binary64 := Binary64.ofDecimal false 1 (-1)

/-- The highest score. -/
def highest : Binary64 := Binary64.ofInt 2

/-- What large faces take away, by the mean number of values of a die. -/
def penalty (meanFaces : Binary64) : Binary64 :=
  if (Binary64.ofInt 20).le meanFaces then Binary64.ofDecimal false 3 (-1)
  else if (Binary64.ofInt 12).le meanFaces then Binary64.ofDecimal false 15 (-2)
  else Binary64.zero false

/-- The number of values of all dice together. -/
def faceTotal (formula : Formula) : Nat :=
  naturalTotal (formula.terms.map fun term => term.count * term.face.count)

/-- The number of distinct faces. -/
def variety (formula : Formula) : Nat := (formula.terms.map Term.face).eraseDups.length

/-- The score before it is held within its bounds and rounded. -/
def rawScore (formula : Formula) : Except Failure Binary64 := do
  let dice := formula.diceCount
  let meanFaces ← wholeQuotient (faceTotal formula) dice
  let weight := (← wholeToReal (dice - 1)).mul diceWeight
  let bonus := (← wholeToReal (variety formula - 1)).mul varietyBonus
  let total := weight.add bonus
  return total.sub (penalty meanFaces)

/-- The score from 0, for at most one die, to the highest; it is rounded to four places. -/
def score (formula : Formula) : Except Failure Binary64 := do
  if formula.diceCount ≤ 1 then return Binary64.zero false
  let raw ← rawScore formula
  return (Binary64.clamp (Binary64.zero false) highest raw).roundPlaces 4

/-- The score above which a shape is a bell: six fifths. -/
def bellScore : Number := .real (Binary64.ofDecimal false 12 (-1))

/-- The score above which a shape is somewhat of a bell: two fifths. -/
def somewhatBellScore : Number := .real (Binary64.ofDecimal false 4 (-1))

/-- The shape with a given score. -/
def classify (score : Number) : Shape :=
  if bellScore.lt score then .bell
  else if somewhatBellScore.lt score then .somewhatBell
  else .flat

end Shape

end DiceLab
