import DiceLab.Binary64.Arithmetic

/-! Numbers that are whole of any size or binary64, compared exactly and converted only when
mixed. -/

namespace DiceLab

/-- The value itself, or a failure in place of an infinite one. -/
def Binary64.finiteOr (failure : Failure) : Binary64 → Except Failure Binary64
  | .infinite _ => .error failure
  | value => .ok value

/-- The binary64 value nearest to a whole number, when there is a finite one. -/
def wholeToReal (value : Int) : Except Failure Binary64 :=
  (Binary64.ofInt value).finiteOr .wholeTooLarge

/-- The binary64 value nearest to a quotient of whole numbers, when there is a finite one. -/
def wholeQuotient (numerator : Int) (denominator : Int) : Except Failure Binary64 :=
  let negative := (numerator < 0) != (denominator < 0)
  (Binary64.ofRatio negative numerator.natAbs denominator.natAbs).finiteOr .quotientTooLarge

/-- A whole number of any size or a binary64 value. -/
inductive Number where
  | whole (value : Int)
  | real (value : Binary64)
deriving DecidableEq

namespace Number

instance : Coe Int Number := ⟨.whole⟩

/-- The exact place of a number on the line. -/
def position? : Number → Option Position
  | .whole value => some (.at (value * Binary64.scale))
  | .real value => value.position?

/-- Exact strict comparison, false when either side is not a number. -/
def lt (left right : Number) : Bool :=
  match left.position?, right.position? with
  | some first, some second => first.before second
  | _, _ => false

/-- Exact non-strict comparison, false when either side is not a number. -/
def le (left right : Number) : Bool :=
  match left.position?, right.position? with
  | some first, some second => !second.before first
  | _, _ => false

/-- Exact equality of values, false when either side is not a number. -/
def sameValue : Number → Number → Bool
  -- Whole numbers are compared as they are, which spares them the scaling.
  | .whole left, .whole right => left == right
  | left, right =>
    match left.position?, right.position? with
    | some first, some second => first == second
    | _, _ => false

/-- The number as a binary64 value. -/
def toReal : Number → Except Failure Binary64
  | .whole value => wholeToReal value
  | .real value => .ok value

/-- Whether the number is a zero. -/
def isZero : Number → Bool
  | .whole value => value == 0
  | .real value => value.isZero

/-- The sum, exact between whole numbers. -/
def add : Number → Number → Except Failure Number
  | .whole left, .whole right => .ok (.whole (left + right))
  | left, right => do return .real ((← left.toReal).add (← right.toReal))

/-- The quotient, always binary64; two whole numbers are divided before they are rounded. -/
def div : Number → Number → Except Failure Binary64
  | .whole left, .whole right => wholeQuotient left right
  | left, right => do return (← left.toReal).div (← right.toReal)

/-- The sum of a list, taken from the left. -/
def sum (numbers : List Number) : Except Failure Number :=
  numbers.foldlM add (.whole 0)

/-- The first of the greatest numbers of a list, or zero for none. -/
def greatest : List Number → Number
  | [] => .whole 0
  | first :: rest => rest.foldl (fun best number => if best.lt number then number else best) first

/-- The nearest whole number reached by adding a half and taking the floor. -/
def roundHalfUp (number : Number) : Except Failure Int := do
  let half := Binary64.ofRatio false 1 2
  ((← number.toReal).add half).floor

end Number

end DiceLab
