import DiceLab.Proofs.Console.Ends
import DiceLab.Proofs.Formula.Grammar

/-! The texts that are read as whole numbers: blanks, a sign, digits with underscores between them,
and blanks. -/

namespace DiceLab.Decimal

open Chunk (SignSpelled)

/-- Digits as they are written: a single underscore may stand between two of them. -/
inductive Grouped : Text → Text → Prop where
  | last {digit : CodePoint} (known : isDigit digit = true) : Grouped [digit] [digit]
  | next {digit : CodePoint} {digits text : Text} (known : isDigit digit = true)
      (behind : Grouped digits text) : Grouped (digit :: digits) (digit :: text)
  | parted {digit : CodePoint} {digits text : Text} (known : isDigit digit = true)
      (behind : Grouped digits text) : Grouped (digit :: digits) (digit :: .char '_' :: text)

/-- The spellings of a whole number; the digits must not be more than may be read. -/
inductive Spelled : Text → Int → Prop where
  | intro {before signText digits body behind : Text} {sign : Sign}
      (blank : ∀ point ∈ before, point.has isNumeralBlank = true)
      (signed : SignSpelled sign signText) (grouped : Grouped digits body)
      (short : digits.length ≤ digitLimit)
      (blankBehind : ∀ point ∈ behind, point.has isNumeralBlank = true) :
      Spelled (before ++ (signText ++ (body ++ behind))) (sign.factor * valueOf digits)

/-- Written digits start with a digit. -/
theorem Grouped.exists_cons {digits text : Text} (grouped : Grouped digits text) :
    ∃ digit others rest,
      digits = digit :: others ∧ text = digit :: rest ∧ isDigit digit = true := by
  cases grouped with
  | last known => exact ⟨_, _, _, rfl, rfl, known⟩
  | next known _ => exact ⟨_, _, _, rfl, rfl, known⟩
  | parted known _ => exact ⟨_, _, _, rfl, rfl, known⟩

/-- A digit is no blank, no sign and no underscore. -/
theorem plain_of_isDigit {point : CodePoint} (known : isDigit point = true) :
    point.has isNumeralBlank = false ∧ point ≠ .char '-' ∧ point ≠ .char '+' ∧
      point ≠ .char '_' := by
  have digits : Digits [point] := by simpa [Digits] using known
  exact plain_of_digitLike (digits.digitLike point List.mem_cons_self)

/-- Digits are taken off up to where they end, unless an underscore follows. -/
theorem takeGrouped_append {digits body rest : Text} (grouped : Grouped digits body)
    (ends : Ends rest) (none : rest.head? ≠ some (.char '_')) :
    takeGrouped (body ++ rest) = (digits, rest) := by
  -- Only behind the last digit is it the rest that decides whether to go on.
  induction grouped with
  | last known =>
    cases rest with
    | nil => simp [takeGrouped, known]
    | cons point rest =>
      have apart : point ≠ .char '_' := fun same => none (congrArg some same)
      have other := ends point rfl
      cases rest with
      | nil => simp [takeGrouped, known, apart, other]
      | cons next more => simp [takeGrouped, known, apart, other]
  | next known behind ih =>
    obtain ⟨digit, others, text, rfl, rfl, first⟩ := behind.exists_cons
    have apart := (plain_of_isDigit first).2.2.2
    rw [List.cons_append] at ih
    simp [takeGrouped, known, apart, ih]
  | parted known behind ih =>
    obtain ⟨digit, others, text, rfl, rfl, first⟩ := behind.exists_cons
    rw [List.cons_append] at ih
    simp [takeGrouped, known, first, ih]

/-- A sign is taken off in front of a digit. -/
theorem takeSign_append {sign : Sign} {signText : Text} (signed : SignSpelled sign signText)
    {point : CodePoint} (known : isDigit point = true) (rest : Text) :
    takeSign (signText ++ point :: rest) = (decide (sign = .minus), point :: rest) := by
  cases signed with
  | minus => rfl
  | plus => rfl
  | absent =>
    -- A digit is no sign, so nothing is taken off.
    obtain ⟨-, minus, plus, -⟩ := plain_of_isDigit known
    unfold takeSign
    split
    · rename_i same
      exact absurd (List.cons.inj same).1 minus
    · rename_i same
      exact absurd (List.cons.inj same).1 plus
    · rfl

/-- What is taken off in front is the spelling of a sign. -/
theorem takeSign_spec (text : Text) :
    ∃ sign signText, SignSpelled sign signText ∧ text = signText ++ (takeSign text).2 ∧
      (takeSign text).1 = decide (sign = .minus) := by
  unfold takeSign
  -- A sign is taken where one stands, and a text without one is positive.
  split
  · exact ⟨.minus, _, .minus, rfl, rfl⟩
  · exact ⟨.plus, _, .plus, rfl, rfl⟩
  · exact ⟨.plus, _, .absent, rfl, rfl⟩

/-- A number is taken from zero behind a minus sign. -/
theorem factor_mul (sign : Sign) (value : Nat) :
    (if decide (sign = .minus) then -(value : Int) else value) = sign.factor * value := by
  cases sign with
  | plus => simp [Sign.factor]
  | minus => simp [Sign.factor]

/-- A blank is no digit and no underscore. -/
theorem plain_of_blank {point : CodePoint} (blank : point.has isNumeralBlank = true) :
    isDigit point = false ∧ point ≠ .char '_' := by
  constructor
  · cases digit : isDigit point with
    | false => rfl
    | true =>
      -- Blanks and digits are told apart by their classes.
      rw [(plain_of_isDigit digit).1] at blank
      cases blank
  · rintro rfl
    exact absurd blank (by decide)

/-- A spelling of a whole number is read as that number. -/
theorem Spelled.readNumeral {text : Text} {value : Int} (spelled : Spelled text value) :
    readNumeral text = .ok value := by
  obtain ⟨blank, signed, grouped, short, blankBehind⟩ := spelled
  rename_i before signText digits body behind sign
  obtain ⟨digit, others, rest, rfl, rfl, known⟩ := grouped.exists_cons
  -- Behind the blanks there is the sign, or the first digit in its place.
  have front : (before ++ (signText ++ (digit :: rest ++ behind))).dropWhile
      (CodePoint.has isNumeralBlank) = signText ++ (digit :: rest ++ behind) := by
    rw [List.dropWhile_append_of_pos blank]
    cases signed with
    | absent => exact List.dropWhile_cons_of_neg (by simp [(plain_of_isDigit known).1])
    | plus => exact List.dropWhile_cons_of_neg (by decide)
    | minus => exact List.dropWhile_cons_of_neg (by decide)
  have ends : Ends behind := fun point first =>
    (plain_of_blank (blankBehind point (List.mem_of_head? first))).1
  have none : behind.head? ≠ some (.char '_') := fun first =>
    (plain_of_blank (blankBehind _ (List.mem_of_head? first))).2 rfl
  have taken := takeGrouped_append grouped ends none
  rw [List.cons_append] at front taken ⊢
  rw [Decimal.readNumeral, front, takeSign_append signed known]
  have all : behind.all (CodePoint.has isNumeralBlank) = true := List.all_eq_true.mpr blankBehind
  simp only [taken, List.isEmpty_cons, Bool.false_or, beq_iff_eq, none, if_false,
    Nat.not_lt.mpr short, all, if_true, factor_mul]

/-- A spelled number can be written. -/
theorem Spelled.writable {text : Text} {value : Int} (spelled : Spelled text value) :
    Writable value := by
  obtain ⟨-, -, -, short, -⟩ := spelled
  rename_i digits _ _ sign
  -- The sign does not change how many digits are written.
  have size : (sign.factor * valueOf digits).natAbs = valueOf digits := by
    cases sign with
    | plus => simp [Sign.factor]
    | minus => simp [Sign.factor]
  rw [Writable, size]
  exact Nat.lt_of_lt_of_le (valueOf_lt digits) (tenTo_le short)

end DiceLab.Decimal
