import DiceLab.Dice
import DiceLab.Formula

/-! Rolling every die of a formula once, with the breakdown of the total. -/

namespace DiceLab

/-- One die of a formula. -/
structure Die where
  sign : Sign
  face : Face
deriving DecidableEq

/-- The dice of a term, one by one. -/
def Term.dice (term : Term) : List Die := List.replicate term.count ⟨term.sign, term.face⟩

/-- The dice of a formula, one by one in the order they are rolled. -/
def Formula.dice (formula : Formula) : List Die := formula.terms.flatMap Term.dice

/-- A die and the value it showed, whatever its sign. -/
structure Throw where
  die : Die
  value : Int
deriving DecidableEq

/-- What a throw adds to the total. -/
def Throw.signed (thrown : Throw) : Int := thrown.die.sign.factor * thrown.value

/-- A throw in a breakdown, without its sign. -/
def Throw.shown (thrown : Throw) : Text :=
  "1" ++ thrown.die.face.tagText ++ "(" ++ Decimal.wholeText thrown.value ++ ")"

/-- The total of a roll and its breakdown. -/
structure Outcome where
  total : Int
  throws : List Throw := []
  modifier : Int := 0
deriving DecidableEq

namespace Outcome

/-- The signed parts of a breakdown: one for each throw, then the modifier unless it is zero. -/
def parts (outcome : Outcome) : List (Sign × Text) :=
  outcome.throws.map (fun thrown => (thrown.die.sign, thrown.shown)) ++
  if outcome.modifier = 0 then []
  else [(if outcome.modifier < 0 then Sign.minus else Sign.plus,
    Decimal.naturalText outcome.modifier.natAbs)]

/-- A part behind another one. -/
def joined (part : Sign × Text) : Text :=
  match part.1 with
  | .plus => " + " ++ part.2
  | .minus => " - " ++ part.2

/-- The breakdown of a roll: the throws with their signs, then the modifier. -/
def breakdown (outcome : Outcome) : Text :=
  match outcome.parts with
  | [] => Decimal.wholeText outcome.modifier
  | (sign, first) :: rest =>
    (match sign with
      | .plus => first
      | .minus => "-" ++ first) ++ rest.flatMap joined

/-- Whether every number of a breakdown is short enough to be written. -/
def Writable (outcome : Outcome) : Prop :=
  (∀ thrown ∈ outcome.throws, thrown.die.face.Writable ∧ Decimal.Writable thrown.value) ∧
    Decimal.Writable outcome.modifier

instance (outcome : Outcome) : Decidable outcome.Writable := inferInstanceAs (Decidable (_ ∧ _))

/-- Writes the breakdown. -/
def describe (outcome : Outcome) : Except Failure Text :=
  if outcome.Writable then .ok outcome.breakdown else .error .tooLongToWrite

end Outcome

namespace Formula

/-- Throws dice in order, drawing each value from a state; the latest throw comes first. -/
@[specialize] def throwAll {σ : Type} (draw : Face → σ → Int × σ) (dice : List Die) (state : σ) :
    List Throw × σ :=
  dice.foldl (fun (thrown, state) die =>
    let (value, next) := draw die.face state
    (⟨die, value⟩ :: thrown, next)) ([], state)

/-- Rolls every die once, each value drawn from a state. -/
@[specialize] def roll {σ : Type} (draw : Face → σ → Int × σ) (formula : Formula) (state : σ) :
    Outcome × σ :=
  let (thrown, next) := throwAll draw formula.dice state
  -- The latest throw came first, and a breakdown starts with the earliest.
  let throws := thrown.reverse
  (⟨formula.modifier + wholeTotal (throws.map Throw.signed), throws, formula.modifier⟩, next)

/-- Rolls dice for their total alone. -/
@[specialize] def rollTotal {σ : Type} (draw : Face → σ → Int × σ) (modifier : Int)
    (dice : List Die) (state : σ) : Int × σ :=
  dice.foldl (fun (total, state) die =>
    let (value, next) := draw die.face state
    (total + die.sign.factor * value, next)) (modifier, state)

/-- Rolls for the total a number of times; the latest total comes first. -/
@[specialize] def rollTotals {σ : Type} (draw : Face → σ → Int × σ) (modifier : Int)
    (dice : List Die) : Nat → List Int → σ → List Int × σ
  | 0, totals, state => (totals, state)
  | more + 1, totals, state =>
    -- The dice are laid out once and thrown again for each roll.
    let (total, next) := rollTotal draw modifier dice state
    rollTotals draw modifier dice more (total :: totals) next

end Formula

end DiceLab
