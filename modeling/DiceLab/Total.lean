/-! Sums over lists. -/

namespace DiceLab

/-- The sum of whole numbers. -/
def wholeTotal (numbers : List Int) : Int := numbers.foldr (· + ·) 0

/-- The sum of natural numbers. -/
def naturalTotal (numbers : List Nat) : Nat := numbers.foldr (· + ·) 0

end DiceLab
