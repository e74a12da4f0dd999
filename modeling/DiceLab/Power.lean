/-! Powers of the two bases that numbers are written in. -/

namespace DiceLab

/-- A power of two. -/
def twoTo (exponent : Nat) : Nat := Nat.pow 2 exponent

/-- A power of ten. -/
def tenTo (exponent : Nat) : Nat := Nat.pow 10 exponent

/-- Powers of two are positive. -/
theorem twoTo_pos (exponent : Nat) : 0 < twoTo exponent := Nat.two_pow_pos exponent

/-- Powers of ten are positive. -/
theorem tenTo_pos (exponent : Nat) : 0 < tenTo exponent := Nat.pow_pos (by decide)

/-- Exponents add up. -/
theorem twoTo_add (first second : Nat) : twoTo (first + second) = twoTo first * twoTo second :=
  Nat.pow_add 2 first second

/-- Exponents of ten add up. -/
theorem tenTo_add (first second : Nat) : tenTo (first + second) = tenTo first * tenTo second :=
  Nat.pow_add 10 first second

/-- A greater exponent gives no smaller power. -/
theorem twoTo_le {first second : Nat} (le : first ≤ second) : twoTo first ≤ twoTo second :=
  Nat.pow_le_pow_right (by decide) le

/-- A greater exponent gives no smaller power of ten. -/
theorem tenTo_le {first second : Nat} (le : first ≤ second) : tenTo first ≤ tenTo second :=
  Nat.pow_le_pow_right (by decide) le

/-- A greater exponent gives a multiple. -/
theorem twoTo_dvd {first second : Nat} (le : first ≤ second) : twoTo first ∣ twoTo second :=
  Nat.pow_dvd_pow 2 le

/-- A positive number is below the power of two behind its leading digit. -/
theorem lt_twoTo_log2 (value : Nat) : value < twoTo (value.log2 + 1) := Nat.lt_log2_self

end DiceLab
