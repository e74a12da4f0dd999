import DiceLab.Text.Replace
import Mathlib.Data.List.Infix

/-! Replacing goes through a text from the left: where the pattern starts it is replaced as a whole, and
every other code point is kept. -/

namespace DiceLab.Text

variable {pattern replacement : Text}

/-- Skipped code points are left out. -/
theorem replaceFrom_eq (pattern replacement : Text) (skipped : Nat) (text : Text) :
    replaceFrom pattern replacement skipped text =
      replace pattern replacement (text.drop skipped) := by
  -- Every code point that is skipped takes one from both sides.
  induction text generalizing skipped with
  | nil => cases skipped with
    | zero => rfl
    | succ skipped => rfl
  | cons point rest ih => cases skipped with
    | zero => rfl
    | succ skipped => exact ih skipped

/-- A pattern at the front is replaced, and nothing that was put in is looked at again. -/
theorem replace_append (some : pattern ≠ []) (rest : Text) :
    replace pattern replacement (pattern ++ rest) =
      replacement ++ replace pattern replacement rest := by
  cases pattern with
  | nil => exact absurd rfl some
  | cons first others =>
    have found : (first :: others).isPrefixOf (first :: (others ++ rest)) = true :=
      List.isPrefixOf_iff_prefix.mpr (List.prefix_append (first :: others) rest)
    rw [List.cons_append, replace, replaceFrom, if_pos found, replaceFrom_eq]
    -- Behind the first code point as many are skipped as the pattern still has.
    rw [List.length_cons, Nat.add_sub_cancel, List.drop_left]

/-- A code point is kept when the pattern does not start at it. -/
theorem replace_cons {point : CodePoint} {rest : Text} (absent : ¬pattern <+: point :: rest) :
    replace pattern replacement (point :: rest) = point :: replace pattern replacement rest := by
  rw [replace, replaceFrom, if_neg (mt List.isPrefixOf_iff_prefix.mp absent)]
  rfl

end DiceLab.Text
