import DiceLab.Decimal.Digits

/-! Whole numbers written in decimal read back as the numbers they came from. -/

namespace DiceLab.Decimal

/-- A text that does not go on with a digit, so that a run of digits before it ends there. -/
def Ends (rest : Text) : Prop := ∀ point, rest.head? = some point → isDigit point = false

/-- The end of a text ends a run of digits. -/
theorem ends_nil : Ends [] := by simp [Ends]

/-- A text holds digits only. -/
def Digits (run : Text) : Prop := ∀ point ∈ run, isDigit point = true

/-- The ASCII digits follow each other. -/
theorem ascii_bounds {char : Char} (digit : char.isDigit = true) :
    48 ≤ char.toNat ∧ char.toNat ≤ 57 := by
  simp only [Char.isDigit, Bool.and_eq_true, decide_eq_true_eq, ge_iff_le,
    UInt32.le_iff_toNat_le] at digit
  exact digit

/-- An ASCII digit has the value by which it stands behind the digit zero. -/
theorem valueOfDigit?_ascii {char : Char} (digit : char.isDigit = true) :
    Text.valueOfDigit? (.char char) = some (char.toNat - 48) := by
  -- The character is one of ten, which the table of digits is known to hold.
  have bounds := ascii_bounds digit
  have known := Text.digitValue?_ascii (char.toNat - 48) (by omega)
  rwa [show 48 + (char.toNat - 48) = char.toNat by omega, Char.ofNat_toNat] at known

/-- Every ASCII digit is a digit. -/
theorem isDigit_ascii {char : Char} (digit : char.isDigit = true) :
    isDigit (.char char) = true := by
  have known := valueOfDigit?_ascii digit
  simp only [Text.valueOfDigit?] at known
  simp [isDigit, CodePoint.has, Text.isDigit, known]

/-- A number is written with digits only. -/
theorem digits_naturalText (value : Nat) : Digits (naturalText value) := by
  intro point member
  obtain ⟨char, written, rfl⟩ := List.mem_map.mp member
  exact isDigit_ascii (Nat.isDigit_of_mem_toDigits (by decide) (by decide) written)

/-- A number is written with at least one digit. -/
theorem naturalText_ne_nil (value : Nat) : naturalText value ≠ [] := by
  simp [naturalText]

/-- A run of ASCII digits stands for the number it stands for in the usual reading. -/
theorem valueOf_ascii {chars : List Char} (digits : ∀ char ∈ chars, char.isDigit = true) :
    valueOf (chars.map .char) = Nat.ofDigitChars 10 chars 0 := by
  -- Both readings go through the digits from the left, so the number so far stays quantified over.
  have general : ∀ (rest : List Char) (value : Nat), (∀ char ∈ rest, char.isDigit = true) →
      (rest.map CodePoint.char).foldl
        (fun value digit => value * 10 + (Text.valueOfDigit? digit).getD 0) value =
      Nat.ofDigitChars 10 rest value := by
    intro rest
    induction rest with
    | nil => simp
    | cons char rest ih =>
      intro value digits
      have first := valueOfDigit?_ascii (digits char (by simp))
      simp only [List.map_cons, List.foldl_cons, Nat.ofDigitChars_cons, first, Option.getD_some]
      rw [ih _ (fun char member => digits char (by simp [member])), Nat.mul_comm]
      rfl
  exact general chars 0 digits

/-- A number that was written reads back as itself. -/
@[simp] theorem valueOf_naturalText (value : Nat) : valueOf (naturalText value) = value := by
  rw [naturalText, valueOf_ascii fun char written =>
    Nat.isDigit_of_mem_toDigits (by decide) (by decide) written]
  exact Nat.ofDigitChars_ten_toDigits

/-- A number may be written exactly when its digits may be read. -/
theorem writable_iff_length (value : Nat) :
    Writable value ↔ (naturalText value).length ≤ digitLimit := by
  have positive : 0 < digitLimit := by decide
  -- The limit itself is never computed with, so any other one would do as well.
  rw [Writable, Int.natAbs_natCast, naturalText, List.length_map]
  generalize digitLimit = limit at positive
  exact (Nat.length_toDigits_le_iff (by decide) positive).symm

/-- Reading digits gives their value and nothing else, and only a run that is too long fails. -/
theorem readDigits_eq_ok {digits : Text} {value : Nat} :
    readDigits digits = .ok value ↔ digits.length ≤ digitLimit ∧ value = valueOf digits := by
  rw [readDigits]
  split
  · rename_i fits
    simp [fits, eq_comm]
  · rename_i long
    simp [long]

/-- The digits of a number that may be written are read without a failure. -/
theorem readDigits_naturalText {value : Nat} (writable : Writable value) :
    readDigits (naturalText value) = .ok value := by
  exact readDigits_eq_ok.mpr ⟨(writable_iff_length value).mp writable, by simp⟩

/-- Writing gives the decimal text of a number, and only one that is too long fails. -/
theorem write_eq_ok {value : Int} {text : Text} :
    write value = .ok text ↔ Writable value ∧ text = wholeText value := by
  rw [write]
  split
  · rename_i writable
    simp [writable, eq_comm]
  · rename_i long
    simp [long]

/-- A number between two that may be written may be written. -/
theorem Writable.between {low high value : Int} (lowWritable : Writable low)
    (highWritable : Writable high) (above : low ≤ value) (below : value ≤ high) :
    Writable value := by
  -- The limit stays a name, since only its order with the three numbers matters.
  revert lowWritable highWritable
  unfold Writable
  generalize tenTo digitLimit = limit
  omega

/-- Zero may be written. -/
theorem writable_zero : Writable 0 := tenTo_pos digitLimit

/-- Whether a whole number may be written hangs on its digits alone. -/
theorem writable_natAbs {value : Int} : Writable value.natAbs ↔ Writable value := by
  rw [Writable, Writable, Int.natAbs_natCast]

end DiceLab.Decimal
