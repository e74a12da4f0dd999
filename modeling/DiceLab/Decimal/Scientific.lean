import DiceLab.Binary64.Arithmetic
import DiceLab.Decimal.Digits

/-! Binary64 values from decimal text with a point and a power of ten. -/

namespace DiceLab.Decimal

/-- Splits off the longest run of ASCII digits. -/
def takeAscii (text : Text) : Text × Text :=
  (text.takeWhile (CodePoint.has Char.isDigit), text.dropWhile (CodePoint.has Char.isDigit))

/-- The digits behind a point; a point without digits behind it is left in the rest. -/
def takeFraction (text : Text) : Option Text × Text :=
  match text with
  | .char '.' :: behind =>
    let (digits, rest) := takeAscii behind
    if digits.isEmpty then (none, text) else (some digits, rest)
  | _ => (none, text)

/-- The power of ten behind its letter; a letter without digits behind it is left in the rest. -/
def takeExponent (text : Text) : Option Int × Text :=
  match text with
  | [] => (none, [])
  | letter :: behind =>
    let (negative, body) := takeSign behind
    let (digits, rest) := takeAscii body
    if (letter = 'e' ∨ letter = 'E') ∧ !digits.isEmpty then
      (some (if negative then -(valueOf digits : Int) else valueOf digits), rest)
    -- A letter without digits behind it is left where it is.
    else (none, text)

/-- The value nearest to a run of digits times a power of ten.

Powers beyond the range of finite values are settled by the number of digits alone. -/
def nearestTo (negative : Bool) (digits : Text) (exponent : Int) : Binary64 :=
  let significant := digits.dropWhile (· == zeroDigit)
  let places := significant.length + exponent
  if significant.isEmpty || places < -323 then Binary64.zero negative
  else if 309 < places then .infinite negative
  else Binary64.ofDecimal negative (valueOf significant) exponent

/-- The value of a number with a whole part, a fraction and a power of ten. -/
def ofParts (negative : Bool) (whole fraction : Text) (exponent : Int) : Binary64 :=
  nearestTo negative (whole ++ fraction) (exponent - fraction.length)

end DiceLab.Decimal
