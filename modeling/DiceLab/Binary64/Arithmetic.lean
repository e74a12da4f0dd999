import DiceLab.Binary64
import DiceLab.Failure

/-! Binary64 operations give the exact result rounded once, and the order is that of exact values.
-/

namespace DiceLab

/-- Where a number stands on the line: an exact number of units, or past every finite value. -/
inductive Position where
  | below
  | at (units : Int)
  | above
deriving DecidableEq

/-- Whether the first position comes strictly before the second. -/
def Position.before : Position → Position → Bool
  | .below, .below => false
  | .below, _ => true
  | .at _, .below => false
  | .at first, .at second => first < second
  | .at _, .above => true
  | .above, _ => false

namespace Binary64

/-- A number of units with a sign. -/
def signed (negative : Bool) (units : Nat) : Int := if negative then -(units : Int) else units

/-- The exact place of a value; not-a-number has none. -/
def position? : Binary64 → Option Position
  | .nan => none
  | .infinite true => some .below
  | .infinite false => some .above
  | .finite negative magnitude => some (.at (signed negative magnitude.units))

/-- Strict comparison, false when either side is not a number. -/
def lt (left right : Binary64) : Bool :=
  match left.position?, right.position? with
  | some first, some second => first.before second
  | _, _ => false

/-- Non-strict comparison, false when either side is not a number. -/
def le (left right : Binary64) : Bool :=
  match left.position?, right.position? with
  | some first, some second => !second.before first
  | _, _ => false

/-- Zero with a sign. -/
def zero (negative : Bool) : Binary64 := ofUnits negative 0 1

/-- The value with its sign flipped. -/
def neg : Binary64 → Binary64
  | .nan => .nan
  | .infinite negative => .infinite !negative
  | .finite negative magnitude => .finite (!negative) magnitude

/-- The rounded sum; an exact zero is negative only when both terms are. -/
def add : Binary64 → Binary64 → Binary64
  | .nan, _ => .nan
  | _, .nan => .nan
  | .infinite left, .infinite right => if left == right then .infinite left else .nan
  | .infinite left, .finite _ _ => .infinite left
  | .finite _ _, .infinite right => .infinite right
  | .finite left first, .finite right second =>
    let total := signed left first.units + signed right second.units
    -- An exact zero has a minus only when both terms have one.
    if total = 0 then zero (left && right) else ofUnits (total < 0) total.natAbs 1

/-- The rounded difference. -/
def sub (left right : Binary64) : Binary64 := add left right.neg

/-- Whether a finite magnitude is zero. -/
def Magnitude.isZero (magnitude : Magnitude) : Bool := magnitude.units == 0

/-- The rounded product. -/
def mul : Binary64 → Binary64 → Binary64
  | .nan, _ => .nan
  | _, .nan => .nan
  | .infinite left, .infinite right => .infinite (left != right)
  | .infinite left, .finite right second =>
    -- Nothing taken endlessly often is no number.
    if second.isZero then .nan else .infinite (left != right)
  | .finite left first, .infinite right =>
    if first.isZero then .nan else .infinite (left != right)
  | .finite left first, .finite right second =>
    ofUnits (left != right) (first.units * second.units) scale

/-- The rounded quotient. -/
def div : Binary64 → Binary64 → Binary64
  | .nan, _ => .nan
  | _, .nan => .nan
  | .infinite _, .infinite _ => .nan
  | .infinite left, .finite right _ => .infinite (left != right)
  | .finite left _, .infinite right => zero (left != right)
  | .finite left first, .finite right second =>
    -- A quotient by zero is an end of the line, unless there is nothing to divide.
    if second.isZero then if first.isZero then .nan else .infinite (left != right)
    else ofUnits (left != right) (first.units * scale) second.units

/-- Whether the value is a zero of either sign. -/
def isZero : Binary64 → Bool
  | .finite _ magnitude => magnitude.isZero
  | _ => false

/-- Applies a rounding of signed units to a finite value; the others have no whole number. -/
def toWhole (round : Int → Int) : Binary64 → Except Failure Int
  | .nan => .error .nanToWhole
  | .infinite _ => .error .infinityToWhole
  | .finite negative magnitude => .ok (round (signed negative magnitude.units))

/-- The greatest whole number that is not above the value. -/
def floor : Binary64 → Except Failure Int := toWhole fun units => units.fdiv scale

/-- The value with its fraction dropped. -/
def truncate : Binary64 → Except Failure Int := toWhole fun units => units.tdiv scale

/-- The nearest whole number, a half going to the even neighbour. -/
def roundEven : Binary64 → Except Failure Int :=
  toWhole fun units => signed (units < 0) (roundQuotient units.natAbs scale)

/-- Whether the value has no fraction. -/
def isWhole : Binary64 → Bool
  | .finite _ magnitude => magnitude.units % scale == 0
  | _ => false

/-- The value rounded to a number of decimal places, a half going to the even last digit. -/
def roundPlaces (places : Nat) : Binary64 → Binary64
  | .nan => .nan
  | .infinite negative => .infinite negative
  | .finite negative magnitude =>
    ofRatio negative (roundQuotient (magnitude.units * tenTo places) scale) (tenTo places)

/-- The value held between two bounds; what does not compare becomes the upper one. -/
def clamp (low high value : Binary64) : Binary64 :=
  let capped := if value.lt high then value else high
  if low.lt capped then capped else low

end Binary64

end DiceLab
