import DiceLab.Binary64.Arithmetic
import DiceLab.Decimal.Digits

/-! Decimal text of binary64 values: fewest digits that read back, fixed places, and six digits. -/

namespace DiceLab.Decimal

open Binary64 (scale)

/-- A decimal fraction `coefficient * 10 ^ exponent`. -/
structure Fraction where
  coefficient : Nat
  exponent : Int
deriving DecidableEq

/-- Whether a positive number of units is below a power of ten. -/
def belowPower (units : Nat) (power : Int) : Bool :=
  units * tenTo (-power).toNat < scale * tenTo power.toNat

/-- The least power of ten above a positive number of units.

The binary logarithm leaves three candidates: its decimal estimate and the two powers after it. -/
def powerAbove (units : Nat) : Int :=
  let guess := (((units.log2 : Int) - 1074) * 30103).fdiv 100000
  if belowPower units guess then guess
  else if belowPower units (guess + 1) then guess + 1
  else guess + 2

/-- A number of units divided by a power of ten, as a quotient of natural numbers. -/
def scaledBy (units : Nat) (power : Int) : Nat × Nat :=
  (units * tenTo (-power).toNat, scale * tenTo power.toNat)

/-- Whether a decimal fraction rounds to the given number of units. -/
def readsBack (units : Nat) (fraction : Fraction) : Bool :=
  Binary64.nearest (fraction.coefficient * tenTo fraction.exponent.toNat * scale)
    (tenTo (-fraction.exponent).toNat) == units

/-- The decimal fraction with a given number of digits that reads back and is nearest, if one does.

Only the two neighbours of the value on that decimal grid can be nearest; of two equally near ones
the even one is taken. -/
def withDigits? (units : Nat) (digits : Nat) : Option Fraction :=
  let power := powerAbove units - digits
  let (numerator, denominator) := scaledBy units power
  let lower := numerator / denominator
  let lowerFraction : Fraction := ⟨lower, power⟩
  let upperFraction : Fraction := ⟨lower + 1, power⟩
  match readsBack units lowerFraction, readsBack units upperFraction with
  -- When both neighbours are read back as the value, the nearer one is written.
  | true, true =>
    if roundQuotient numerator denominator = lower then some lowerFraction else some upperFraction
  | true, false => some lowerFraction
  | false, true => some upperFraction
  | false, false => none

/-- The shortest decimal fraction that reads back as a positive number of units.

Seventeen digits always suffice; the exact value stands behind them. -/
def shortest (units : Nat) : Fraction :=
  ((List.range 17).findSome? fun digits => withDigits? units (digits + 1)).getD
    ⟨units * Nat.pow 5 1074, -1074⟩

/-- A positive number of units rounded to a number of significant digits. -/
def significant (digits units : Nat) : Fraction :=
  let power := powerAbove units - digits
  let (numerator, denominator) := scaledBy units power
  ⟨roundQuotient numerator denominator, power⟩

/-- How a decimal fraction is laid out: positional below a power of ten, and whether a whole number
still shows a point. -/
structure Layout where
  positionalBelow : Int
  pointZero : Bool

/-- A number shown in full is positional below ten to the sixteenth and always shows a point or an
exponent. -/
def Layout.full : Layout := ⟨16, true⟩

/-- A count shown in six digits is positional below a million and shows a point only when needed. -/
def Layout.compact : Layout := ⟨6, false⟩

/-- The exponent of a number in scientific form: a sign and at least two digits. -/
def exponentText (exponent : Int) : Text :=
  let digits := naturalText exponent.natAbs
  'e' :: (if exponent < 0 then '-' else '+') ::
    (if digits.length < 2 then zeroDigit :: digits else digits)

/-- Lays out digits whose first one stands for the given power of ten. -/
def Layout.write (layout : Layout) (digits : Text) (leading : Int) : Text :=
  if leading < -4 ∨ layout.positionalBelow ≤ leading then
    -- Scientific form has one digit before the point.
    match digits with
    | first :: second :: rest => first :: pointMark :: second :: rest ++ exponentText leading
    | _ => digits ++ exponentText leading
  else if leading < 0 then
    zeroDigit :: pointMark :: (List.replicate (-leading - 1).toNat zeroDigit ++ digits)
  else
    let whole := leading.toNat + 1
    if digits.length ≤ whole then
      digits ++ List.replicate (whole - digits.length) zeroDigit ++
        (if layout.pointZero then [pointMark, zeroDigit] else [])
    else digits.take whole ++ pointMark :: digits.drop whole

/-- The digits of a fraction without trailing zeros, and the power of ten of the first one. -/
def Fraction.significantDigits (fraction : Fraction) : Text × Int :=
  let digits := naturalText fraction.coefficient
  ((digits.reverse.dropWhile (· == zeroDigit)).reverse, fraction.exponent + digits.length - 1)

/-- The text of a sign. -/
def signText (negative : Bool) : Text := if negative then ['-'] else []

/-- The text of a value whose positive magnitudes are turned into fractions by the given rule. -/
def realText (layout : Layout) (digits : Nat → Fraction) : Binary64 → Text
  | .nan => "nan"
  | .infinite negative => signText negative ++ "inf"
  | .finite negative magnitude =>
    let body :=
      -- Zero has no leading digit to be laid out from.
      if magnitude.isZero then layout.write [zeroDigit] 0
      else
        let (shown, leading) := (digits magnitude.units).significantDigits
        layout.write shown leading
    signText negative ++ body

/-- The fewest digits that read back as the value. -/
def fullText : Binary64 → Text := realText .full shortest

/-- The value in six significant digits, without trailing zeros. -/
def compactText : Binary64 → Text := realText .compact (significant 6)

/-- The value with a fixed number of decimal places, a half going to the even last digit. -/
def fixedText (places : Nat) : Binary64 → Text
  | .nan => "nan"
  | .infinite negative => signText negative ++ "inf"
  | .finite negative magnitude =>
    let rounded := roundQuotient (magnitude.units * tenTo places) scale
    let digits := naturalText rounded
    -- In front of the point there is one digit at least.
    let padded := List.replicate (places + 1 - digits.length) zeroDigit ++ digits
    let whole := padded.length - places
    let fraction := if places = 0 then [] else pointMark :: padded.drop whole
    signText negative ++ padded.take whole ++ fraction

end DiceLab.Decimal
