import DiceLab.Number
import Mathlib.Data.Int.ConditionallyCompleteOrder
import Mathlib.Order.ConditionallyCompleteLattice.Basic

/-! The comparison of binary64 values is the linear order of their places on the line. -/

namespace DiceLab

namespace Position

/-- A position among the whole numbers and the two ends beyond them. -/
def place : Position → WithBot (WithTop ℤ)
  | .below => ⊥
  | .at units => (units : WithTop ℤ)
  | .above => (⊤ : WithTop ℤ)

/-- One position comes before another when its place does. -/
theorem before_iff_place {first second : Position} :
    first.before second = true ↔ first.place < second.place := by
  -- The two ends compare with everything, and the rest is the order of whole numbers.
  have finite (units : ℤ) : ((units : WithTop ℤ) : WithBot (WithTop ℤ)) < ⊤ :=
    WithBot.coe_lt_coe.mpr (WithTop.coe_lt_top units)
  -- The position on the left is fixed first, and the other one is then compared by evaluation.
  cases first with
  | below => cases second <;> simp [before, place]
  | «at» units => cases second <;> simp [before, place, finite]
  | above => cases second <;> simp [before, place]

/-- A place is that of one position only. -/
theorem place_injective {first second : Position} (same : first.place = second.place) :
    first = second := by
  cases first <;> cases second <;> simp_all [place]

end Position

namespace Binary64

/-- The place of a value on the line; not-a-number, which has none, is put at the lower end. -/
def place (value : Binary64) : WithBot (WithTop ℤ) := (value.position?.map Position.place).getD ⊥

/-- A value other than not-a-number has a position. -/
theorem exists_position {value : Binary64} (number : value ≠ .nan) :
    ∃ position, value.position? = some position := by
  -- Infinite values stand at the two ends, finite ones at their number of units.
  cases value with
  | nan => exact absurd rfl number
  | infinite negative =>
    cases negative with
    | true => exact ⟨_, rfl⟩
    | false => exact ⟨_, rfl⟩
  | finite negative magnitude => exact ⟨_, rfl⟩

/-- Numbers compare as their places do. -/
theorem lt_iff_place {first second : Binary64} (number : first ≠ .nan) (other : second ≠ .nan) :
    first.lt second = true ↔ first.place < second.place := by
  -- Numbers have positions, and these compare as their places do.
  obtain ⟨left, leftKnown⟩ := exists_position number
  obtain ⟨right, rightKnown⟩ := exists_position other
  simp only [lt, place, leftKnown, rightKnown, Option.map_some, Option.getD_some]
  exact Position.before_iff_place

/-- A number is at most another one when its place is. -/
theorem le_iff_place {first second : Binary64} (number : first ≠ .nan) (other : second ≠ .nan) :
    first.le second = true ↔ first.place ≤ second.place := by
  -- The two comparisons of numbers are each other's negation.
  have negated : first.le second = !second.lt first := by
    obtain ⟨left, leftKnown⟩ := exists_position number
    obtain ⟨right, rightKnown⟩ := exists_position other
    simp only [le, lt, leftKnown, rightKnown]
  rw [negated, Bool.not_eq_true', ← not_lt, ← lt_iff_place other number, Bool.not_eq_true]

/-- A value that is no less than zero and carries no minus. -/
inductive Nonnegative : Binary64 → Prop where
  | infinite : Nonnegative (.infinite false)
  | finite (magnitude : Magnitude) : Nonnegative (.finite false magnitude)

namespace Nonnegative

variable {value other : Binary64}

/-- It is a number. -/
theorem ne_nan (nonnegative : value.Nonnegative) : value ≠ .nan := by
  rintro rfl
  cases nonnegative

/-- Its place tells it from all others, zero having one sign only. -/
theorem place_injective (nonnegative : value.Nonnegative) (otherNonnegative : other.Nonnegative)
    (same : value.place = other.place) : value = other := by
  obtain ⟨position, known⟩ := exists_position nonnegative.ne_nan
  obtain ⟨otherPosition, otherKnown⟩ := exists_position otherNonnegative.ne_nan
  simp only [place, known, otherKnown, Option.map_some, Option.getD_some] at same
  have positions := Position.place_injective same
  subst positions
  have agree := known.trans otherKnown.symm
  -- Without a minus the number of units is the position itself.
  cases nonnegative with
  | infinite =>
    cases otherNonnegative with
    | infinite => rfl
    | finite magnitude => simp [position?] at agree
  | finite magnitude =>
    cases otherNonnegative with
    | infinite => simp [position?] at agree
    | finite otherMagnitude =>
      obtain ⟨units, _, _⟩ := magnitude
      obtain ⟨otherUnits, _, _⟩ := otherMagnitude
      simp only [position?, signed, Bool.false_eq_true, if_false, Option.some.injEq,
        Position.at.injEq, Int.natCast_inj] at agree
      subst agree
      rfl

end Nonnegative

/-- A quotient without a minus is nonnegative. -/
theorem nonnegative_ofUnits (numerator denominator : Nat) :
    (ofUnits false numerator denominator).Nonnegative := by
  unfold ofUnits
  -- A quotient that overflows gives the upper end, and any other one a finite value without a
  -- minus.
  cases Magnitude.nearest? numerator denominator with
  | none => exact .infinite
  | some magnitude => exact .finite magnitude

/-- Zero is nonnegative. -/
theorem nonnegative_zero : (zero false).Nonnegative := by
  rw [zero]
  exact nonnegative_ofUnits 0 1

/-- What is above a nonnegative value is nonnegative. -/
theorem Nonnegative.of_lt {low value : Binary64} (nonnegative : low.Nonnegative)
    (above : low.lt value = true) : value.Nonnegative := by
  cases nonnegative with
  | infinite =>
    -- Nothing is above the upper end.
    cases value with
    | nan => simp [lt, position?] at above
    | infinite negative => cases negative <;> simp [lt, position?, Position.before] at above
    | finite negative magnitude => simp [lt, position?, Position.before] at above
  | finite floor =>
    cases value with
    | nan => simp [lt, position?] at above
    | infinite negative =>
      cases negative with
      | true => simp [lt, position?, Position.before] at above
      | false => exact .infinite
    | finite negative magnitude =>
      cases negative with
      | true =>
        -- With a minus the number of units is at most zero.
        simp only [lt, position?, signed, Position.before, decide_eq_true_eq, if_true,
          Bool.false_eq_true, if_false] at above
        omega
      | false => exact .finite magnitude

/-- A value held above a nonnegative one is nonnegative, whatever it was. -/
theorem Nonnegative.clamp {low : Binary64} (nonnegative : low.Nonnegative)
    (high value : Binary64) : (Binary64.clamp low high value).Nonnegative := by
  unfold Binary64.clamp
  dsimp only
  -- Whatever the value was capped to, it is kept only when it lies above the lower bound.
  generalize (if value.lt high then value else high) = capped
  split
  · rename_i above
    exact nonnegative.of_lt above
  · exact nonnegative

/-- Rounding to decimal places keeps a value nonnegative. -/
theorem Nonnegative.roundPlaces {value : Binary64} (nonnegative : value.Nonnegative)
    (places : Nat) : (value.roundPlaces places).Nonnegative := by
  cases nonnegative with
  | infinite => exact .infinite
  | finite magnitude =>
    simp only [Binary64.roundPlaces, ofRatio]
    exact nonnegative_ofUnits _ _

end Binary64

/-- Whole numbers compare as they are. -/
theorem Number.le_whole (left right : Int) :
    (Number.whole left).le (.whole right) = decide (left ≤ right) := by
  -- Both sides are scaled by the units in one, of which there are some, so their order stays.
  have unit : (0 : Int) < Binary64.scale := Int.natCast_pos.mpr (twoTo_pos _)
  have order : right * Binary64.scale < left * Binary64.scale ↔ right < left :=
    Int.mul_lt_mul_right unit
  simp only [le, position?, Position.before, order]
  simp only [← decide_not, Int.not_lt]

/-- Whole numbers compare strictly as they are. -/
theorem Number.lt_whole (left right : Int) :
    (Number.whole left).lt (.whole right) = decide (left < right) := by
  have unit : (0 : Int) < Binary64.scale := Int.natCast_pos.mpr (twoTo_pos _)
  have order : left * Binary64.scale < right * Binary64.scale ↔ left < right :=
    Int.mul_lt_mul_right unit
  simp only [lt, position?, Position.before, order]

/-- Binary64 values compare as they are. -/
theorem Number.le_real (left right : Binary64) :
    (Number.real left).le (.real right) = left.le right := rfl

/-- They do so strictly as well. -/
theorem Number.lt_real (left right : Binary64) :
    (Number.real left).lt (.real right) = left.lt right := rfl

/-- Numbers at one place compare with others alike. -/
theorem Number.le_congr {left other : Number} (same : left.position? = other.position?)
    (right : Number) : left.le right = other.le right := by
  rw [Number.le, Number.le, same]

end DiceLab
