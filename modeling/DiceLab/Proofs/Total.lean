import DiceLab.Total
import Mathlib.Algebra.Order.BigOperators.Group.List
import Mathlib.Algebra.Order.Group.Nat
import Mathlib.Algebra.Order.Ring.Int

/-! Laws of sums over lists. -/

namespace DiceLab

/-- A total of whole numbers is the sum of their list. -/
theorem wholeTotal_eq_sum (numbers : List Int) : wholeTotal numbers = numbers.sum := rfl

/-- The sum of no numbers is zero. -/
@[simp] theorem wholeTotal_nil : wholeTotal [] = 0 := rfl

/-- The first number is added to the sum of the others. -/
@[simp] theorem wholeTotal_cons (first : Int) (rest : List Int) :
    wholeTotal (first :: rest) = first + wholeTotal rest := rfl

/-- Sums of two lists add up. -/
@[simp] theorem wholeTotal_append (first second : List Int) :
    wholeTotal (first ++ second) = wholeTotal first + wholeTotal second :=
  List.sum_append_int

/-- The sum of copies of a number is a multiple of it. -/
@[simp] theorem wholeTotal_replicate (copies : Nat) (number : Int) :
    wholeTotal (List.replicate copies number) = copies * number :=
  List.sum_replicate_int

/-- Lists put behind each other add up to the sum of their sums. -/
theorem wholeTotal_flatMap {α : Type} (items : List α) (part : α → List Int) :
    wholeTotal (items.flatMap part) =
      wholeTotal (items.map fun item => wholeTotal (part item)) := by
  rw [wholeTotal_eq_sum, List.flatMap_def, List.sum_flatten, List.map_map]
  rfl

/-- The order of numbers makes no difference to their sum. -/
theorem wholeTotal_perm {numbers others : List Int} (same : numbers.Perm others) :
    wholeTotal numbers = wholeTotal others :=
  same.sum_eq

/-- Numbers that are all zero add nothing. -/
theorem wholeTotal_of_zero {numbers : List Int} (zero : ∀ number ∈ numbers, number = 0) :
    wholeTotal numbers = 0 :=
  List.sum_eq_zero zero

/-- A total of natural numbers is the sum of their list. -/
theorem naturalTotal_eq_sum (numbers : List Nat) : naturalTotal numbers = numbers.sum := rfl

/-- The sum of no natural numbers is zero. -/
@[simp] theorem naturalTotal_nil : naturalTotal [] = 0 := rfl

/-- The first natural number is added to the sum of the others. -/
@[simp] theorem naturalTotal_cons (first : Nat) (rest : List Nat) :
    naturalTotal (first :: rest) = first + naturalTotal rest := rfl

/-- Sums of two lists of natural numbers add up. -/
@[simp] theorem naturalTotal_append (first second : List Nat) :
    naturalTotal (first ++ second) = naturalTotal first + naturalTotal second :=
  List.sum_append_nat

/-- The sum of copies of a natural number is a multiple of it. -/
@[simp] theorem naturalTotal_replicate (copies number : Nat) :
    naturalTotal (List.replicate copies number) = copies * number :=
  List.sum_replicate_nat

/-- Natural numbers that are all zero add nothing. -/
theorem naturalTotal_of_zero {numbers : List Nat} (zero : ∀ number ∈ numbers, number = 0) :
    naturalTotal numbers = 0 :=
  List.sum_eq_zero zero

/-- Lists of natural numbers put behind each other add up to the sum of their sums. -/
theorem naturalTotal_flatMap {α : Type} (items : List α) (part : α → List Nat) :
    naturalTotal (items.flatMap part) =
      naturalTotal (items.map fun item => naturalTotal (part item)) := by
  rw [naturalTotal_eq_sum, List.flatMap_def, List.sum_flatten, List.map_map]
  rfl

/-- The order of natural numbers makes no difference to their sum. -/
theorem naturalTotal_perm {numbers others : List Nat} (same : numbers.Perm others) :
    naturalTotal numbers = naturalTotal others :=
  same.sum_eq

/-- Positive numbers add up to no less than how many they are. -/
theorem length_le_naturalTotal {numbers : List Nat} (positive : ∀ number ∈ numbers, 0 < number) :
    numbers.length ≤ naturalTotal numbers :=
  List.length_le_sum_of_one_le numbers positive

/-- Numbers that are no greater one by one add up to no more. -/
theorem naturalTotal_le {α : Type} {items : List α} {part bound : α → Nat}
    (within : ∀ item ∈ items, part item ≤ bound item) :
    naturalTotal (items.map part) ≤ naturalTotal (items.map bound) :=
  List.sum_le_sum within

/-- No number is greater than what it is a part of. -/
theorem le_naturalTotal {numbers : List Nat} {number : Nat} (member : number ∈ numbers) :
    number ≤ naturalTotal numbers :=
  List.le_sum_of_mem member

/-- A sum is no farther from zero than its numbers are together. -/
theorem natAbs_wholeTotal_le {α : Type} {items : List α} {part : α → Int} {bound : α → Nat}
    (within : ∀ item ∈ items, (part item).natAbs ≤ bound item) :
    (wholeTotal (items.map part)).natAbs ≤ naturalTotal (items.map bound) := by
  induction items with
  | nil => simp
  | cons item rest ih =>
    rw [List.forall_mem_cons] at within
    have first := within.1
    have others := ih within.2
    -- Adding a number moves the sum by no more than the size of the number.
    simp only [List.map_cons, wholeTotal_cons, naturalTotal_cons]
    omega

end DiceLab
