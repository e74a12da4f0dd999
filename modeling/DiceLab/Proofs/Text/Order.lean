import DiceLab.Text
import Mathlib.Data.List.Lex

/-! Texts stand in the order of the numbers of their code points, compared one by one. -/

namespace DiceLab.Text

/-- The numbers of the code points of a text. -/
def numbers (text : Text) : List Nat := text.map CodePoint.number

/-- A text is told by its numbers. -/
theorem numbers_injective {first second : Text} (same : first.numbers = second.numbers) :
    first = second := by
  apply List.map_injective_iff.mpr _ same
  -- Each code point comes back from its number.
  exact Function.LeftInverse.injective CodePoint.ofNumber_number

/-- A text may stand before another one unless its numbers come behind those of the other. -/
theorem inOrder_iff {first second : Text} :
    first.inOrder second = true ↔ ¬second.numbers < first.numbers := by
  induction first generalizing second with
  | nil => simp [inOrder, numbers]
  | cons point rest ih =>
    cases second with
    | nil => simp [inOrder, numbers]
    | cons other others =>
      simp only [inOrder, numbers, List.map_cons, List.cons_lt_cons_iff]
      split
      · -- Equal code points leave the decision to the rest.
        rename_i same
        subst same
        simp only [Nat.lt_irrefl, false_or, true_and]
        exact ih
      · -- Different code points have different numbers.
        rename_i differs
        have apart : other.number ≠ point.number := by
          intro same
          apply differs
          rw [← CodePoint.ofNumber_number point, ← same, CodePoint.ofNumber_number]
        simp only [decide_eq_true_eq, apart, false_and, or_false]
        omega

/-- The order of texts goes on from text to text. -/
theorem inOrder_trans (first second third : Text) (one : first.inOrder second = true)
    (two : second.inOrder third = true) : first.inOrder third = true := by
  rw [inOrder_iff, not_lt] at one two ⊢
  exact le_trans one two

/-- Of two texts one may stand before the other. -/
theorem inOrder_total (first second : Text) :
    (first.inOrder second || second.inOrder first) = true := by
  rw [Bool.or_eq_true, inOrder_iff, inOrder_iff, not_lt, not_lt]
  exact le_total _ _

/-- Texts that may stand on either side of each other are the same. -/
theorem eq_of_inOrder {first second : Text} (one : first.inOrder second = true)
    (two : second.inOrder first = true) : first = second := by
  rw [inOrder_iff, not_lt] at one two
  exact numbers_injective (le_antisymm one two)

end DiceLab.Text
