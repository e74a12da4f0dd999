import DiceLab.Text

/-! Decimal digits of every script, each with its value. -/

namespace DiceLab.Text

/-- The code points of the zeros of all decimal digit runs; nine digits follow each in order. -/
def digitZeros : List Nat := [
  0x30, 0x660, 0x6f0, 0x7c0, 0x966, 0x9e6, 0xa66, 0xae6, 0xb66, 0xbe6, 0xc66, 0xce6, 0xd66, 0xde6,
  0xe50, 0xed0, 0xf20, 0x1040, 0x1090, 0x17e0, 0x1810, 0x1946, 0x19d0, 0x1a80, 0x1a90, 0x1b50,
  0x1bb0, 0x1c40, 0x1c50, 0xa620, 0xa8d0, 0xa900, 0xa9d0, 0xa9f0, 0xaa50, 0xabf0, 0xff10, 0x104a0,
  0x10d30, 0x11066, 0x110f0, 0x11136, 0x111d0, 0x112f0, 0x11450, 0x114d0, 0x11650, 0x116c0,
  0x11730, 0x118e0, 0x11950, 0x11c50, 0x11d50, 0x11da0, 0x16a60, 0x16ac0, 0x16b50, 0x1d7ce,
  0x1d7d8, 0x1d7e2, 0x1d7ec, 0x1d7f6, 0x1e140, 0x1e2f0, 0x1e950, 0x1fbf0]

/-- The value of a decimal digit of any script. -/
def digitValue? (char : Char) : Option Nat :=
  digitZeros.findSome? fun start =>
    if start ≤ char.toNat ∧ char.toNat < start + 10 then some (char.toNat - start) else none

/-- Whether the character is a decimal digit of some script. -/
def isDigit (char : Char) : Bool := (digitValue? char).isSome

/-- The code points, as first and last of each run, that show a digit without counting in tens. -/
def ornamentRuns : List (Nat × Nat) := [
  (0xb2, 0xb3), (0xb9, 0xb9), (0x1369, 0x1371), (0x19da, 0x19da), (0x2070, 0x2070),
  (0x2074, 0x2079), (0x2080, 0x2089), (0x2460, 0x2468), (0x2474, 0x247c), (0x2488, 0x2490),
  (0x24ea, 0x24ea), (0x24f5, 0x24fd), (0x24ff, 0x24ff), (0x2776, 0x277e), (0x2780, 0x2788),
  (0x278a, 0x2792), (0x10a40, 0x10a43), (0x10e60, 0x10e68), (0x11052, 0x1105a), (0x1f100, 0x1f10a)]

/-- Whether the character looks like a digit: a decimal digit, a superscript, a circled digit. -/
def isDigitLike (char : Char) : Bool :=
  isDigit char || ornamentRuns.any fun run => run.1 ≤ char.toNat && char.toNat ≤ run.2

/-- The value of a code point that is a decimal digit of any script. -/
def valueOfDigit? : CodePoint → Option Nat
  | .char value => digitValue? value
  | .surrogate _ => none

/-- The ASCII digits keep their usual values. -/
theorem digitValue?_ascii : ∀ digit < 10, digitValue? (Char.ofNat (48 + digit)) = some digit := by
  decide

end DiceLab.Text
