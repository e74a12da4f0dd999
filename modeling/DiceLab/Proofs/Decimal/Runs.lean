import DiceLab.Proofs.Decimal.Digits

/-! The runs of digits of a text, and the texts in which none of them is too long. -/

namespace DiceLab.Decimal

/-- The runs of digits of a text, one before and one behind every other code point. -/
def runs (text : Text) : List Text := text.splitOnP fun point => !isDigit point

/-- No run of digits of a text has more digits than a number may have. -/
def ShortRuns (text : Text) : Prop := ∀ run ∈ runs text, run.length ≤ digitLimit

instance (text : Text) : Decidable (ShortRuns text) := inferInstanceAs (Decidable (∀ _ ∈ _, _))

/-- A code point that is no digit parts the runs in front of it from those behind it. -/
theorem runs_append_cons (first second : Text) {point : CodePoint} (parts : isDigit point = false) :
    runs (first ++ point :: second) = runs first ++ runs second :=
  List.splitOnP_append_cons first second (by rw [parts]; rfl)

/-- Digits are one run. -/
theorem runs_of_digits {run : Text} (digits : Digits run) : runs run = [run] := by
  refine List.splitOnP_eq_singleton fun point member => ?_
  rw [digits point member]
  rfl

/-- The runs around a code point that is no digit are short when those on both sides are. -/
theorem shortRuns_append_cons (first second : Text) {point : CodePoint}
    (parts : isDigit point = false) :
    ShortRuns (first ++ point :: second) ↔ ShortRuns first ∧ ShortRuns second := by
  rw [ShortRuns, runs_append_cons first second parts, List.forall_mem_append, ShortRuns, ShortRuns]

/-- Digits are short as long as they are no more than a number may have. -/
theorem shortRuns_of_digits {run : Text} (digits : Digits run) :
    ShortRuns run ↔ run.length ≤ digitLimit := by
  rw [ShortRuns, runs_of_digits digits, List.forall_mem_singleton]

/-- The empty text has no digits. -/
theorem shortRuns_nil : ShortRuns [] :=
  (shortRuns_of_digits (by simp [Digits])).mpr (Nat.zero_le _)

/-- A number has few enough digits to be written when the text of it has. -/
theorem shortRuns_naturalText (value : Nat) : ShortRuns (naturalText value) ↔ Writable value := by
  rw [shortRuns_of_digits (digits_naturalText value), writable_iff_length]

end DiceLab.Decimal
