import DiceLab.Histogram
import DiceLab.Outcome
import DiceLab.Formula.Reading

/-! Distributions of totals: exact for a lone numeric die, from many rolls for everything else. -/

namespace DiceLab

/-- The most rolls made for one histogram. -/
def mostTrials : Int := 1000000

namespace Formula

/-- The numeric die that is all the dice of a formula. -/
def singleDie? (formula : Formula) : Option Die :=
  match formula.terms with
  | [term] => if term.count = 1 ∧ !term.face.isFudge then some ⟨term.sign, term.face⟩ else none
  | _ => none

/-- Whether a formula has one numeric die and nothing else to roll. -/
def isSingleDie (formula : Formula) : Bool := formula.singleDie?.isSome

/-- The totals a lone die can give, in ascending order. -/
def singleTotals (die : Die) (modifier : Int) : List Int :=
  (die.face.values.map fun value => die.sign.factor * value + modifier).mergeSort
    fun first second => first ≤ second

/-- A weight spread evenly over the totals of a lone numeric die; any other formula has none. -/
def exactDistribution (formula : Formula) (weight : Number) : Except Failure Histogram :=
  match formula.singleDie? with
  | none => .ok []
  | some die => do
    let share ← weight.div (.whole die.face.count)
    return (singleTotals die formula.modifier).map fun total => (total, .real share)

/-- The tally of a number of rolls, and the state of the source behind them. -/
@[specialize] def rollHistogram {σ : Type} (draw : Face → σ → Int × σ) (formula : Formula)
    (trials : Nat) (state : σ) : List (Int × Nat) × σ :=
  -- Without a roll the dice are never laid out.
  if trials = 0 then ([], state)
  else
    let (totals, next) := rollTotals draw formula.modifier formula.dice trials [] state
    (Histogram.tally totals, next)

/-- Rolls a formula once. -/
def rollOnce (formula : Formula) : Session Dice Outcome := .ofState (roll Dice.draw formula)

end Formula

/-- Rolls a number of times, which is brought into range first, and tallies the totals; each value
is drawn from a state. -/
@[specialize] def batchFrom {σ : Type} (draw : Face → σ → Int × σ) (draft : Draft)
    (trials : Value) : Session σ (List (Int × Nat)) := do
  let count ← (ensureWhole "trials" 0 (some mostTrials) none trials : Reported Int)
  let formula := (← (draft.read : Reported Reading)).formula
  -- The rolls are made before the log record is written, so a formula that is too long to be
  -- written still draws from the source.
  let counts ← Session.ofState (Formula.rollHistogram draw formula count.toNat)
  let text ← (formula.text : Except Failure Text)
  let used ← (Decimal.write count : Except Failure Text)
  (Reported.log .debug ("Simulated " ++ used ++ " rolls of '" ++ text ++ "'")
    [("macro", .text text), ("trials", .whole count), ("outcomes", .whole counts.length)] :
      Reported Unit)
  return counts

/-- Rolls a number of times with dice, and tallies the totals. -/
def batch (draft : Draft) (trials : Value) : Session Dice (List (Int × Nat)) :=
  batchFrom Dice.draw draft trials

/-- The weight that a number of runs stands for. -/
def weightOf (runs : Value) : Except Failure Number :=
  match runs.number? with
  | some weight => .ok weight
  | none => .error (.notDivisible runs.kindName)

/-- The exact histogram that spreads a number of runs; only a lone numeric die weighs them. -/
def Formula.exactFor (formula : Formula) (runs : Value) : Except Failure Histogram :=
  if formula.isSingleDie then do formula.exactDistribution (← weightOf runs) else .ok []

/-- The histogram to show for a formula: the exact one if there is anything in it, otherwise that
of as many rolls, each value drawn from a state. -/
@[specialize] def distributionFrom {σ : Type} (draw : Face → σ → Int × σ) (reading : Reading)
    (runs : Value) : Session σ Histogram := do
  let exact ← (reading.formula.exactFor runs : Except Failure Histogram)
  if exact.isEmpty then return Histogram.ofCounts (← batchFrom draw (.reading reading) runs)
  else return exact

/-- The histogram to show for a formula that is rolled with dice. -/
def distribution (reading : Reading) (runs : Value) : Session Dice Histogram :=
  distributionFrom Dice.draw reading runs

end DiceLab
