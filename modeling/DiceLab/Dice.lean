import DiceLab.Face

/-! Sources of draws: a script that is repeated, and a linear congruential generator. -/

namespace DiceLab

/-- Where draws come from. -/
inductive DiceSource where
  /-- Numbers used in turn, again and again; without any, every draw is the smallest. -/
  | script (numbers : Array Nat)
  | congruential (state : UInt64)

/-- A source of draws and how many were taken from it. -/
structure Dice where
  source : DiceSource
  drawn : Nat := 0

namespace Dice

/-- The source that is used when nobody names another. -/
def standard : Dice := ⟨.congruential 0, 0⟩

/-- The generator started from a whole number. -/
def ofSeed (seed : Int) : Dice := ⟨.congruential (.ofInt seed), 0⟩

/-- The source that repeats some numbers. -/
def ofScript (numbers : Array Nat) : Dice := ⟨.script numbers, 0⟩

/-- The step of the generator, modulo two to the sixty-fourth. -/
def advance (state : UInt64) : UInt64 := state * 6364136223846793005 + 1442695040888963407

/-- The next number of a source, and the source behind it. -/
def next (dice : Dice) : Nat × Dice :=
  match dice.source with
  | .script numbers =>
    let number := if numbers.isEmpty then 0 else numbers.getD (dice.drawn % numbers.size) 0
    (number, { dice with drawn := dice.drawn + 1 })
  | .congruential state =>
    -- The low bits of the state have short periods and are dropped.
    let state := advance state
    ((state >>> 16).toNat, ⟨.congruential state, dice.drawn + 1⟩)

/-- Draws a whole number between two bounds. -/
def between (low high : Int) (dice : Dice) : Int × Dice :=
  let (number, rest) := dice.next
  -- A remainder brings any number into the range.
  (low + (number % (high - low + 1).toNat : Nat), rest)

/-- Draws a value of a face. -/
def draw (face : Face) (dice : Dice) : Int × Dice := dice.between face.low face.high

end Dice

end DiceLab
