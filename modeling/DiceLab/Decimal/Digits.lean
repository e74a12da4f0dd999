import DiceLab.Failure
import DiceLab.Power
import DiceLab.Text.Blank
import DiceLab.Text.Digit
import DiceLab.Text.Quoted

/-! Whole numbers as decimal text: reading runs of digits and writing numbers, both of bounded
length. -/

namespace DiceLab.Decimal

/-- The most digits a number may have when it is read or written. -/
def digitLimit : Nat := 4300

/-- The digit zero. -/
def zeroDigit : CodePoint := '0'

/-- The mark before a fraction. -/
def pointMark : CodePoint := '.'

/-- The number that a run of digits stands for, most significant first. -/
def valueOf (digits : Text) : Nat :=
  digits.foldl (fun value digit => value * 10 + (Text.valueOfDigit? digit).getD 0) 0

/-- Reads a run of digits, leading zeros counting toward its length. -/
def readDigits (digits : Text) : Except Failure Nat :=
  if digits.length ≤ digitLimit then .ok (valueOf digits) else .error (.tooManyDigits digits.length)

/-- The shortest decimal text of a natural number. -/
def naturalText (value : Nat) : Text := (Nat.toDigits 10 value).map .char

/-- The shortest decimal text of a whole number, with a minus sign for a negative one. -/
def wholeText (value : Int) : Text :=
  if value < 0 then '-' :: naturalText value.natAbs else naturalText value.natAbs

/-- Whether a number has few enough digits to be written. -/
def Writable (value : Int) : Prop := value.natAbs < tenTo digitLimit

instance (value : Int) : Decidable (Writable value) := inferInstanceAs (Decidable (_ < _))

/-- Writes a whole number. -/
def write (value : Int) : Except Failure Text :=
  if Writable value then .ok (wholeText value) else .error .tooLongToWrite

/-- The ways in which a text can fail to be a whole number. -/
inductive NumeralFault where
  | tooManyDigits (count : Nat)
  | malformed
deriving DecidableEq

/-- Blanks that may stand around a numeral: the separator controls are not among them. -/
def isNumeralBlank (char : Char) : Bool :=
  Text.isBlank char && !(0x1c ≤ char.toNat && char.toNat ≤ 0x1f)

/-- Splits off a sign; anything else counts as positive. -/
def takeSign : Text → Bool × Text
  | .char '-' :: rest => (true, rest)
  | .char '+' :: rest => (false, rest)
  | text => (false, text)

/-- Whether a code point is a decimal digit of some script. -/
def isDigit (point : CodePoint) : Bool := point.has Text.isDigit

/-- The leading digits, where a single underscore may stand between two digits, and what follows.

An underscore that is not followed by a digit is left in the rest. -/
def takeGrouped : Text → Text × Text
  | [] => ([], [])
  | [point] => if isDigit point then ([point], []) else ([], [point])
  | point :: next :: more =>
    if !isDigit point then ([], point :: next :: more)
    else if next = '_' then
      -- An underscore only parts two digits.
      if (more.head?.map isDigit).getD false then
        let (digits, rest) := takeGrouped more
        (point :: digits, rest)
      else ([point], next :: more)
    else
      let (digits, rest) := takeGrouped (next :: more)
      (point :: digits, rest)

/-- Reads blanks, a sign, digits and blanks as a whole number.

A dangling underscore is malformed before the digits are counted; the count is judged before
what follows the digits. -/
def readNumeral (text : Text) : Except NumeralFault Int :=
  -- The blanks behind are only allowed for after the digits have been counted.
  let (negative, body) := takeSign (text.dropWhile (CodePoint.has isNumeralBlank))
  let (digits, rest) := takeGrouped body
  if digits.isEmpty || rest.head? == some (.char '_') then .error .malformed
  else if digitLimit < digits.length then .error (.tooManyDigits digits.length)
  else if rest.all (CodePoint.has isNumeralBlank) then
    .ok (if negative then -(valueOf digits : Int) else valueOf digits)
  else .error .malformed

/-- The part of a quoted text shown when it is not a numeral. -/
def shownLength : Nat := 200

/-- Reads a text that must be a whole number. -/
def parse (text : Text) : Except Failure Int :=
  match readNumeral text with
  | .ok value => .ok value
  | .error (.tooManyDigits count) => .error (.tooManyDigits count)
  | .error .malformed =>
    .error (.notWholeNumber ((Text.quoted text).take shownLength))

end DiceLab.Decimal
