import DiceLab.Console
import DiceLab.Proofs.Formula.Size
import Mathlib.Data.List.TakeWhile

/-! The ends of a search are checked for digits behind any number of minus signs, and are read with
one minus sign at most and with decimal digits alone. -/

namespace DiceLab

namespace Text

/-- The numbers of all blanks. -/
def blankNumbers : List Nat := [
  0x09, 0x0a, 0x0b, 0x0c, 0x0d, 0x1c, 0x1d, 0x1e, 0x1f, 0x20, 0x85, 0xa0, 0x1680, 0x2000, 0x2001,
  0x2002, 0x2003, 0x2004, 0x2005, 0x2006, 0x2007, 0x2008, 0x2009, 0x200a, 0x2028, 0x2029, 0x202f,
  0x205f, 0x3000]

/-- Nothing else is blank. -/
theorem mem_blankNumbers {char : Char} (blank : isBlank char = true) :
    char.toNat ∈ blankNumbers := by
  simp only [isBlank, Bool.or_eq_true, Bool.and_eq_true, decide_eq_true_eq, beq_iff_eq] at blank
  simp only [blankNumbers, List.mem_cons, List.not_mem_nil, or_false]
  omega

/-- What looks like a digit is not blank. -/
theorem isBlank_of_isDigitLike {char : Char} (digit : isDigitLike char = true) :
    isBlank char = false := by
  have apart : ∀ number ∈ blankNumbers, isDigitLike (Char.ofNat number) = false := by
    decide +kernel
  -- There are few blanks, and none of them is in the tables of digits.
  cases blank : isBlank char with
  | false => rfl
  | true =>
    have none := apart char.toNat (mem_blankNumbers blank)
    rw [Char.ofNat_toNat, digit] at none
    cases none

end Text

namespace Decimal

/-- A run without underscores is grouped as its leading digits and what follows them. -/
theorem takeGrouped_eq {text : Text} (plain : ∀ point ∈ text, point ≠ .char '_') :
    takeGrouped text = (text.takeWhile isDigit, text.dropWhile isDigit) := by
  induction text with
  | nil => rfl
  | cons point rest ih =>
    rw [List.forall_mem_cons] at plain
    cases rest with
    | nil =>
      rw [takeGrouped]
      cases digit : isDigit point with
      | true => simp [digit]
      | false => simp [digit]
    | cons next more =>
      -- Only an underscore between digits would part a group from the next one.
      have underscore : ¬next = .char '_' := plain.2 next List.mem_cons_self
      rw [takeGrouped]
      cases digit : isDigit point with
      | true => simp [digit, underscore, ih plain.2]
      | false => simp [digit]

/-- A numeral without blanks and underscores: a minus sign or none, and decimal digits, no more of
them than allowed. -/
inductive Numeral : Text → Int → Prop where
  | positive {run : Text} (nonempty : run ≠ []) (digits : Digits run)
      (short : run.length ≤ digitLimit) : Numeral run (valueOf run)
  | negative {run : Text} (nonempty : run ≠ []) (digits : Digits run)
      (short : run.length ≤ digitLimit) : Numeral (.char '-' :: run) (-(valueOf run : Int))

/-- A numeral is smaller than the power of ten of its figures. -/
theorem Numeral.natAbs_lt {text : Text} {value : Int} (numeral : Numeral text value) :
    value.natAbs < tenTo text.figures := by
  cases numeral with
  | positive nonempty digits short =>
    rw [Int.natAbs_natCast, Text.figures_of_digits digits]
    exact valueOf_lt _
  | negative nonempty digits short =>
    rename_i run
    -- The digits are what is left of the text without the sign.
    have behind := Text.figures_le (List.sublist_cons_self (CodePoint.char '-') run)
    rw [Text.figures_of_digits digits] at behind
    rw [Int.natAbs_neg, Int.natAbs_natCast]
    exact Nat.lt_of_lt_of_le (valueOf_lt run) (tenTo_le behind)

/-- A run of code points that look like digits. -/
def DigitLike (run : Text) : Prop := ∀ point ∈ run, point.has Text.isDigitLike = true

/-- Digits look like digits. -/
theorem Digits.digitLike {run : Text} (digits : Digits run) : DigitLike run := by
  intro point member
  have digit := digits point member
  cases point with
  -- A surrogate is no digit, and all digits are told by the wider property.
  | surrogate offset => cases digit
  | char value =>
    simp only [isDigit, CodePoint.has] at digit
    simp [CodePoint.has, Text.isDigitLike, digit]

/-- What looks like a digit is no blank, no sign and no underscore. -/
theorem plain_of_digitLike {point : CodePoint} (like : point.has Text.isDigitLike = true) :
    point.has isNumeralBlank = false ∧ point ≠ .char '-' ∧ point ≠ .char '+' ∧
      point ≠ .char '_' := by
  refine ⟨?_, ?_, ?_, ?_⟩
  · cases point with
    | surrogate offset => rfl
    | char value => simp [CodePoint.has, isNumeralBlank, Text.isBlank_of_isDigitLike like]
  · rintro rfl
    exact absurd like (by decide)
  · rintro rfl
    exact absurd like (by decide)
  · rintro rfl
    exact absurd like (by decide)

/-- Behind a sign that was taken, a run that looks like digits is read when all of it is digits and
it is not too long. -/
theorem readNumeral_digitLike {run : Text} (nonempty : run ≠ []) (like : DigitLike run)
    {text : Text} {negative : Bool} (taken : takeSign text = (negative, run))
    (first : text.dropWhile (CodePoint.has isNumeralBlank) = text) {value : Int} :
    readNumeral text = .ok value ↔ Digits run ∧ run.length ≤ digitLimit ∧
      value = if negative then -(valueOf run : Int) else valueOf run := by
  have plain (point : CodePoint) (member : point ∈ run) := plain_of_digitLike (like point member)
  have grouped := takeGrouped_eq fun point member => (plain point member).2.2.2
  rw [readNumeral, first]
  simp only [taken, grouped]
  by_cases digits : Digits run
  · have whole : run.takeWhile isDigit = run := List.takeWhile_eq_self_iff.mpr digits
    have none : run.dropWhile isDigit = [] := List.dropWhile_eq_nil_iff.mpr digits
    have some : run.isEmpty = false := by simpa using nonempty
    simp only [whole, none, some, digits, true_and, List.head?_nil, List.all_nil, if_true]
    by_cases long : digitLimit < run.length
    · simp [long, Nat.not_le.mpr long]
    · simp [long, Nat.not_lt.mp long, eq_comm]
  · -- The first of the others is no blank, so something is left over.
    have others : (run.dropWhile isDigit).all (CodePoint.has isNumeralBlank) = false := by
      cases rest : run.dropWhile isDigit with
      | nil => exact absurd (List.dropWhile_eq_nil_iff.mp rest) digits
      | cons point behind =>
        have member : point ∈ run := by
          apply (List.dropWhile_sublist isDigit).subset
          rw [rest]
          exact List.mem_cons_self
        rw [List.all_cons, (plain point member).1, Bool.false_and]
    rw [others]
    simp only [digits, false_and, iff_false, Bool.false_eq_true, if_false]
    split
    · simp
    · split
      · simp
      · simp

/-- A second minus sign is never read. -/
theorem readNumeral_doubled (rest : Text) :
    readNumeral (.char '-' :: .char '-' :: rest) = .error .malformed := by
  have blank : CodePoint.has isNumeralBlank (.char '-') = false := by decide
  have digit : isDigit (.char '-') = false := by decide +kernel
  -- Behind the first sign stands another one, which is no digit, so there is nothing to read.
  have grouped : (takeGrouped (.char '-' :: rest)).1 = [] := by
    cases rest with
    | nil => simp [takeGrouped, digit]
    | cons next more => simp [takeGrouped, digit]
  rw [readNumeral, List.dropWhile_cons_of_neg (by simp [blank])]
  simp [takeSign, grouped]

/-- A run that looks like digits starts with no sign, so none is taken off. -/
theorem takeSign_digitLike {run : Text} (like : DigitLike run) : takeSign run = (false, run) := by
  cases run with
  | nil => rfl
  | cons point rest =>
    obtain ⟨-, minus, plus, -⟩ := plain_of_digitLike (like point List.mem_cons_self)
    unfold takeSign
    -- Neither sign is a digit-like character.
    split
    · rename_i same
      rw [List.cons.injEq] at same
      exact absurd same.1 minus
    · rename_i same
      rw [List.cons.injEq] at same
      exact absurd same.1 plus
    · rfl

/-- No text with a minus sign is a run of digits. -/
theorem not_digits_minus (rest : Text) : ¬Digits (.char '-' :: rest) := by
  intro digits
  have digit := digits (.char '-') List.mem_cons_self
  exact absurd digit (by decide +kernel)

/-- A run that looks like digits is read when it is a numeral. -/
theorem readNumeral_run {run : Text} (nonempty : run ≠ []) (like : DigitLike run) {value : Int} :
    readNumeral run = .ok value ↔ Numeral run value := by
  obtain ⟨point, rest, rfl⟩ := List.exists_cons_of_ne_nil nonempty
  obtain ⟨blank, minus, -, -⟩ := plain_of_digitLike (like point List.mem_cons_self)
  have first : (point :: rest).dropWhile (CodePoint.has isNumeralBlank) = point :: rest :=
    List.dropWhile_cons_of_neg (by simp [blank])
  rw [readNumeral_digitLike nonempty like (takeSign_digitLike like) first]
  constructor
  · rintro ⟨digits, short, rfl⟩
    exact .positive nonempty digits short
  · intro numeral
    -- A negative numeral starts with a minus sign, which does not look like a digit.
    cases numeral with
    | positive _ digits short => exact ⟨digits, short, rfl⟩
    | negative _ _ _ => exact absurd rfl minus

/-- Behind one minus sign, a run that looks like digits is read when both are a numeral. -/
theorem readNumeral_minus {run : Text} (nonempty : run ≠ []) (like : DigitLike run) {value : Int} :
    readNumeral (.char '-' :: run) = .ok value ↔ Numeral (.char '-' :: run) value := by
  have first : (CodePoint.char '-' :: run).dropWhile (CodePoint.has isNumeralBlank) =
      .char '-' :: run := List.dropWhile_cons_of_neg (by decide)
  rw [readNumeral_digitLike nonempty like rfl first]
  constructor
  · rintro ⟨digits, short, rfl⟩
    exact .negative nonempty digits short
  · intro numeral
    cases numeral with
    -- A text that begins with a sign is no run of digits.
    | positive _ digits _ => exact absurd digits (not_digits_minus run)
    | negative _ digits short => exact ⟨digits, short, rfl⟩

/-- No numeral has a second minus sign. -/
theorem not_numeral_doubled (rest : Text) (value : Int) :
    ¬Numeral (.char '-' :: .char '-' :: rest) value := by
  intro numeral
  cases numeral with
  | positive _ digits _ => exact not_digits_minus _ digits
  | negative _ digits _ => exact not_digits_minus _ digits

/-- A text is read as a whole number when it is read as a numeral. -/
theorem parse_eq_ok {text : Text} {value : Int} :
    parse text = .ok value ↔ readNumeral text = .ok value := by
  unfold parse
  -- Parsing tells the failures apart and leaves every number as it is.
  split
  · rename_i read
    rw [read, Except.ok.injEq, Except.ok.injEq]
  · rename_i read
    rw [read]
    simp
  · rename_i read
    rw [read]
    simp

end Decimal

namespace Console

open Decimal (Digits DigitLike Numeral)

/-- An end is any number of minus signs with a run behind them that looks like digits. -/
theorem isEnd_iff {word : Text} :
    isEnd word = true ↔ ∃ signs run, word = List.replicate signs (.char '-') ++ run ∧ run ≠ [] ∧
      DigitLike run := by
  constructor
  · intro checked
    simp only [isEnd, Bool.and_eq_true, Bool.not_eq_true', List.isEmpty_eq_false_iff,
      List.all_eq_true] at checked
    refine ⟨(word.takeWhile (· == .char '-')).length, word.dropWhile (· == .char '-'), ?_,
      checked.1, checked.2⟩
    -- What is dropped in front is a run of one character.
    have front : word.takeWhile (· == .char '-') =
        List.replicate (word.takeWhile (· == .char '-')).length (.char '-') := by
      apply List.eq_replicate_iff.mpr
      refine ⟨rfl, ?_⟩
      intro point member
      simpa using List.mem_takeWhile_imp member
    rw [← front, List.takeWhile_append_dropWhile]
  · rintro ⟨signs, run, rfl, nonempty, like⟩
    -- The run begins behind the signs, because its first character is none.
    have dropped : (List.replicate signs (CodePoint.char '-') ++ run).dropWhile
        (· == .char '-') = run := by
      rw [List.dropWhile_append_of_pos (by simp)]
      cases run with
      | nil => rfl
      | cons point rest =>
        have sign := (Decimal.plain_of_digitLike (like point List.mem_cons_self)).2.1
        exact List.dropWhile_cons_of_neg (by simpa using sign)
    simp only [isEnd, dropped, Bool.and_eq_true, Bool.not_eq_true', List.isEmpty_eq_false_iff,
      List.all_eq_true]
    exact ⟨nonempty, like⟩

/-- Of the words that pass the check, exactly the numerals are read. -/
theorem parse_of_isEnd {word : Text} (checked : isEnd word = true) {value : Int} :
    Decimal.parse word = .ok value ↔ Numeral word value := by
  rw [Decimal.parse_eq_ok]
  obtain ⟨signs, run, rfl, nonempty, like⟩ := isEnd_iff.mp checked
  -- The check lets any number of signs pass, and only one of them is ever read.
  match signs with
  | 0 => exact Decimal.readNumeral_run nonempty like
  | 1 => exact Decimal.readNumeral_minus nonempty like
  | more + 2 =>
    rw [List.replicate_succ, List.replicate_succ, List.cons_append, List.cons_append,
      Decimal.readNumeral_doubled]
    constructor
    · intro read
      cases read
    · intro numeral
      exact absurd numeral (Decimal.not_numeral_doubled _ _)

/-- Every numeral passes the check. -/
theorem isEnd_of_numeral {word : Text} {value : Int} (numeral : Numeral word value) :
    isEnd word = true := by
  apply isEnd_iff.mpr
  cases numeral with
  | positive nonempty digits _ => exact ⟨0, word, rfl, nonempty, digits.digitLike⟩
  | negative nonempty digits _ => exact ⟨1, _, rfl, nonempty, digits.digitLike⟩

end Console

end DiceLab
