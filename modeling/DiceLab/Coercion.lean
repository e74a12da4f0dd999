import DiceLab.Report

/-! Values that should be text or whole numbers are turned into such, with a warning when they
change. -/

namespace DiceLab

/-- Warns that a value of another kind is used through its text. -/
def warnNotText (name kind text : Text) : Reported Unit :=
  .warn ("Expected text for " ++ name ++ ", got " ++ kind ++ "; using " ++ Text.quoted text)

/-- The text of a value; null becomes the default, and anything but text draws a warning. -/
def ensureText (name default : Text) : Value → Reported Text
  | .text value => return value
  | value => do
    let text ← match value with
      -- Nothing is replaced by the default, and all else by what it is shown as.
      | .null => pure default
      | other => (other.shown : Reported Text)
    warnNotText name value.kindName text
    return text

/-- The whole number a value stands for: fractions are dropped, texts are read, truth values do not
count. -/
def wholeOf? : Value → Option Int
  | .whole value => some value
  | .real value => value.truncate.toOption
  | .text value => (Decimal.readNumeral value).toOption
  | _ => none

/-- A whole number held between a lower bound and an upper bound, if there is one; the upper bound
wins when they cross. -/
def clampWhole (low : Int) (high : Option Int) (value : Int) : Int :=
  let raised := max low value
  match high with
  | none => raised
  | some bound => min raised bound

/-- Whether a value already is the number it was corrected to. -/
def isCorrected (value : Value) (corrected : Int) : Bool :=
  match value with
  | .truth _ => false
  | other => match other.number? with
    | some number => number.sameValue (.whole corrected)
    | none => false

/-- A whole number within bounds, with a warning when it is not the value that was given. -/
def ensureWhole (name : Text) (low : Int) (high : Option Int) (default : Option Int)
    (value : Value) : Reported Int := do
  -- A value that is no number at all becomes the default, which is held within the bounds too.
  let corrected := clampWhole low high ((wholeOf? value).getD (default.getD low))
  if !isCorrected value corrected then
    let lowText ← Decimal.write low
    let highText ← match high with
      | none => pure (Text.ofString "inf")
      | some bound => Reported.write bound
    let given ← value.quoted
    let used ← Decimal.write corrected
    Reported.warn (name ++ " must be an integer in [" ++ lowText ++ ", " ++ highText ++ "], got " ++
      given ++ "; using " ++ used)
  return corrected

end DiceLab
