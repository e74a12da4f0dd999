import DiceLab.Face
import DiceLab.Total

/-! Dice formulas: signed groups of equal dice and a flat modifier, with their one normal text. -/

namespace DiceLab

/-- Whether dice add to a total or are taken from it. -/
inductive Sign where
  | plus
  | minus
deriving DecidableEq, Repr

/-- The factor a sign stands for. -/
def Sign.factor : Sign → Int
  | .plus => 1
  | .minus => -1

/-- A signed group of equal dice. -/
structure Term where
  sign : Sign
  count : Nat
  face : Face
  positive : 0 < count

namespace Term

instance : DecidableEq Term := fun first second =>
  if same : first.sign = second.sign ∧ first.count = second.count ∧ first.face = second.face then
    isTrue (by
      cases first
      cases second
      simp_all)
  else
    isFalse (by
      rintro rfl
      exact same ⟨rfl, rfl, rfl⟩)

/-- The text of the dice without a sign. -/
def body (term : Term) : Text := Decimal.naturalText term.count ++ term.face.tagText

/-- The text of the dice; a leading plus is left out. -/
def plainText (leading : Bool) (term : Term) : Text :=
  match term.sign with
  | .minus => '-' :: term.body
  | .plus => if leading then term.body else '+' :: term.body

/-- Whether the numbers of a term are short enough to be written. -/
def Writable (term : Term) : Prop := Decimal.Writable term.count ∧ term.face.Writable

instance (term : Term) : Decidable term.Writable := inferInstanceAs (Decidable (_ ∧ _))

/-- Writes a term. -/
def text (leading : Bool) (term : Term) : Except Failure Text :=
  if term.Writable then .ok (term.plainText leading) else .error .tooLongToWrite

end Term

/-- Groups of dice in the order they were written, and the sum of all flat numbers. -/
structure Formula where
  terms : List Term := []
  modifier : Int := 0
deriving DecidableEq

namespace Formula

/-- The number of dice. -/
def diceCount (formula : Formula) : Nat := naturalTotal (formula.terms.map Term.count)

/-- A modifier behind dice: nothing for zero, otherwise a sign and a number. -/
def modifierText (modifier : Int) : Text :=
  if modifier = 0 then []
  else if modifier < 0 then Decimal.wholeText modifier
  else '+' :: Decimal.wholeText modifier

/-- The normal text: the terms in order, then the modifier; without terms the modifier alone. -/
def plainText (formula : Formula) : Text :=
  match formula.terms with
  -- A modifier alone is written even when it is zero, so that no text is empty.
  | [] => Decimal.wholeText formula.modifier
  | first :: rest =>
    first.plainText true ++ rest.flatMap (Term.plainText false) ++ modifierText formula.modifier

/-- Whether every number of a formula is short enough to be written. -/
def Writable (formula : Formula) : Prop :=
  (∀ term ∈ formula.terms, term.Writable) ∧ Decimal.Writable formula.modifier

instance (formula : Formula) : Decidable formula.Writable := inferInstanceAs (Decidable (_ ∧ _))

/-- Writes a formula in its normal text. -/
def text (formula : Formula) : Except Failure Text :=
  if formula.Writable then .ok formula.plainText else .error .tooLongToWrite

/-- Writing gives the normal text, and only a formula with too long a number fails. -/
theorem text_eq_ok {formula : Formula} {text : Text} :
    formula.text = .ok text ↔ formula.Writable ∧ text = formula.plainText := by
  rw [Formula.text]
  split
  · rename_i writable
    simp [writable, eq_comm]
  · rename_i long
    simp [long]

end Formula

end DiceLab
