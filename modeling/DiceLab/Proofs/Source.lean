import DiceLab.Dice

/-! Sources of draws of every kind, told apart only by the values they give. -/

namespace DiceLab

/-- A source of draws: for two bounds and a state, the value drawn and the state behind it. -/
abbrev Source (σ : Type) := Int → Int → σ → Int × σ

/-- Scripted dice draw the next number of their script as it is when the face has room for it. -/
theorem Dice.draw_script {numbers : Array Nat} {drawn number : Nat} {later : List Nat}
    (behind : numbers.toList.drop drawn = number :: later) {face : Face}
    (small : number < face.count) :
    draw face ⟨.script numbers, drawn⟩ = (face.low + number, ⟨.script numbers, drawn + 1⟩) := by
  -- There is a number left to draw, so the script has not started over.
  have inside : drawn < numbers.size := by
    have lengths := congrArg List.length behind
    simp only [List.length_drop, Array.length_toList, List.length_cons] at lengths
    omega
  rw [List.drop_eq_getElem_cons (by simpa using inside), List.cons.injEq] at behind
  have some : numbers.isEmpty = false := by
    simp only [Array.isEmpty_eq_false_iff]
    rintro rfl
    simp at inside
  have read : numbers.getD (drawn % numbers.size) 0 = number := by
    rw [Nat.mod_eq_of_lt inside, ← behind.1]
    simp [Array.getD, inside]
  rw [Face.count] at small
  simp only [draw, between, next, some, Bool.false_eq_true, if_false, read, Nat.mod_eq_of_lt small]

namespace Source

variable {σ : Type}

/-- Draws a value of a face, between its smallest and its largest. -/
def draw (source : Source σ) (face : Face) (state : σ) : Int × σ :=
  source face.low face.high state

/-- A source never draws outside the bounds it is asked for. -/
def Bounded (source : Source σ) : Prop :=
  -- Bounds that cross are never asked for, and nothing is said about them.
  ∀ low high state, low ≤ high → low ≤ (source low high state).1 ∧ (source low high state).1 ≤ high

/-- The same source with a log of the bounds of its draws, the latest last. -/
def logged (source : Source σ) : Source (σ × List (Int × Int)) := fun low high (state, log) =>
  let (value, next) := source low high state
  (value, next, log ++ [(low, high)])

/-- Values of faces stay within their bounds. -/
theorem Bounded.draw {source : Source σ} (bounded : source.Bounded) (face : Face) (state : σ) :
    face.low ≤ (source.draw face state).1 ∧ (source.draw face state).1 ≤ face.high :=
  bounded face.low face.high state face.low_le_high

/-- Dice are one of the sources. -/
def dice : Source Dice := fun low high dice => dice.between low high

/-- Dice never draw outside the bounds they are asked for. -/
theorem dice_bounded : dice.Bounded := by
  intro low high state order
  -- A remainder stays below the number of values between the bounds.
  have below := Nat.mod_lt state.next.1 (show 0 < (high - low + 1).toNat by omega)
  simp only [dice, Dice.between]
  omega

end Source

end DiceLab
