import DiceLab.Decimal.Scientific

/-! Numbers given as text to a field: ASCII digits, with some freedom around them. -/

namespace DiceLab.Schema

/-- The text without blanks at its ends. -/
def trim (text : Text) : Text := Text.trim Decimal.isNumeralBlank text

/-- The underscore, which may divide digits. -/
def underscore : CodePoint := '_'

/-- The minus sign. -/
def minusSign : CodePoint := '-'

/-- Whether a code point is an ASCII digit. -/
def isAsciiDigit (point : CodePoint) : Bool := point.has Char.isDigit

/-- The text without its underscores, when there are any and each stands alone inside it. -/
def withoutUnderscores? (text : Text) : Option Text :=
  let doubled := (text.zip (text.drop 1)).any (· == (underscore, underscore))
  let outside := text.head? == some underscore || text.getLast? == some underscore
  if !text.contains underscore || doubled || outside then none
  else some (text.filter (· != underscore))

/-- Reads a plain whole number, which has no zeros in front; its length is judged before what
follows it. -/
def readPlainWhole (text : Text) : Except FaultKind Int :=
  let negative := text.head? == some minusSign
  let body := if negative then text.drop 1 else text
  let (digits, rest) := Decimal.takeAscii body
  if body.head? == some Decimal.zeroDigit && body != [Decimal.zeroDigit] then .error .wholeText
  else if digits.isEmpty then .error .wholeText
  -- The limit is checked before what stands behind the digits.
  else if Decimal.digitLimit < text.length - rest.length then .error .wholeSize
  else if !rest.isEmpty then .error .wholeText
  else .ok (if negative then -(Decimal.valueOf digits : Int) else Decimal.valueOf digits)

/-- The text behind the zeros in front, which underscores may divide; behind zeros a minus sign may
follow.

One zero is kept before a point and when there is nothing else. -/
def withoutZeros? (text : Text) : Option Text :=
  match text with
  | .char '0' :: behind =>
    let rest := behind.dropWhile fun point => point == Decimal.zeroDigit || point == underscore
    match rest with
    -- The last zero is kept when there is nothing else.
    | [] => some (text.drop (text.length - 1))
    | .char '.' :: _ => some (text.drop (text.length - rest.length - 1))
    | point :: _ => if isAsciiDigit point || point == minusSign then some rest else none
  | point :: _ => if isAsciiDigit point then some text else none
  | [] => none

/-- The text before a fraction of zeros, of which there is at least one. -/
def withoutFraction (text : Text) : Text :=
  let whole := text.takeWhile (· != Decimal.pointMark)
  let fraction := (text.drop whole.length).drop 1
  if !fraction.isEmpty && fraction.all (· == Decimal.zeroDigit) then whole else text

/-- The text without a plus sign, which no other sign may follow. -/
def withoutPlus? (text : Text) : Option Text :=
  match text with
  | .char '+' :: .char '-' :: _ => none
  | .char '+' :: rest => some rest
  | _ => some text

/-- The plain digits of a number without a minus sign in front. -/
def plainDigits? (text : Text) : Option Text :=
  (withoutZeros? text).map fun bare =>
    let whole := withoutFraction bare
    (withoutUnderscores? whole).getD whole

/-- The plain form of a number with blanks around it, a sign, zeros in front, underscores between
its digits, and a fraction of zeros. -/
def plainForm? (text : Text) : Option Text :=
  match withoutPlus? (trim text) with
  | some (.char '-' :: rest) => (plainDigits? rest).map (minusSign :: ·)
  | some bare => plainDigits? bare
  | none => none

/-- Reads a whole number in its plain form or in one that can be brought to it. Only a number that
is plain from the start can be told to be too long. -/
def readWhole (text : Text) : Except FaultKind Int :=
  match readPlainWhole text with
  | .error .wholeText =>
    match (plainForm? text).map readPlainWhole with
    | some (.ok value) => .ok value
    | _ => .error .wholeText
  | decided => decided

/-- The words that stand for values that are not finite numbers. -/
def realWords : List (String × (Bool → Binary64)) := [
  ("inf", .infinite), ("infinity", .infinite), ("nan", fun _ => .nan)]

/-- Reads a number with an optional fraction and power of ten, or a word, behind an optional sign.
-/
def readPlainReal? (text : Text) : Option Binary64 :=
  let (negative, body) := Decimal.takeSign text
  match realWords.find? fun word => Text.ofString word.1 == body.map (.map Char.toLower) with
  | some (_, value) => some (value negative)
  | none =>
    let (whole, behind) := Decimal.takeAscii body
    -- Digits may be missing on one side of the point, but not on both.
    let (fraction, behind) :=
      match behind with
      | .char '.' :: rest => Decimal.takeAscii rest
      | rest => ([], rest)
    let (exponent, rest) := Decimal.takeExponent behind
    if (whole.isEmpty && fraction.isEmpty) || !rest.isEmpty then none
    else some (Decimal.ofParts negative whole fraction (exponent.getD 0))

/-- Reads a number with blanks around it or with underscores between its characters, but not with
both. -/
def readReal? (text : Text) : Option Binary64 :=
  (readPlainReal? (trim text)).or ((withoutUnderscores? text).bind readPlainReal?)

end DiceLab.Schema
