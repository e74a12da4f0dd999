import DiceLab.Entries
import DiceLab.Schema.Checked
import DiceLab.Schema.Numeral
import DiceLab.Value

/-! Checks of the fields of a record, each of which takes any value that clearly stands for its
own. -/

namespace DiceLab.Schema

open Checked (fault)

/-- Whole numbers beyond this size are not taken from binary64 values. -/
def wholeRange : Number := .whole (twoTo 63)

/-- The whole number that a binary64 value is. -/
def wholeOfReal (value : Binary64) : Checked Int :=
  match value.truncate with
  | .error _ => fault .notFinite
  | .ok whole =>
    if !value.isWhole then fault .fraction
    else if (Number.whole whole.natAbs).lt wholeRange then .ok whole
    else fault .wholeSize

/-- A whole number: itself, a truth value, a binary64 value without a fraction, or a text. -/
def whole : Value → Checked Int
  | .whole value => .ok value
  | .truth value => .ok (if value then 1 else 0)
  | .real value => wholeOfReal value
  | .text value =>
    -- A text with a broken character is not looked at.
    if value.isBroken then fault .broken
    else
      match readWhole value with
      | .ok read => .ok read
      | .error kind => fault kind
  | _ => fault .notWhole

/-- A binary64 value: a number, a truth value, or a text. -/
def real (value : Value) : Checked Binary64 :=
  match value with
  | .text text =>
    if text.isBroken then fault .broken
    else
      match readReal? text with
      | some read => .ok read
      | none => fault .realText
  | other =>
    match other.number?.map Number.toReal with
    -- Whole numbers are converted, unless they are too large.
    | some (.ok read) => .ok read
    | _ => fault .notReal

/-- A text. -/
def text : Value → Checked Text
  | .text value => .ok value
  | _ => fault .notText

/-- A member of a family, given by its word. -/
def member {α : Type} (ofWord? : Text → Option α) : Value → Checked α
  | .text word =>
    match ofWord? word with
    | some found => .ok found
    | none => fault (if word.isBroken then .broken else .notMember)
  | _ => fault .notMember

/-- A value that may be null. -/
def nullable {α : Type} (check : Value → Checked α) : Value → Checked (Option α)
  | .null => .ok none
  | value => some <$> check value

/-- The items of a list, each at its position. -/
def list {α : Type} (check : Value → Checked α) : Value → Checked (List α)
  | .list items =>
    items.zipIdx.foldr (fun (item, position) checked =>
      List.cons <$> (check item).inside (toString position) <*> checked) (.ok [])
  | _ => fault .notList

/-- The fields of a record. -/
def record {α : Type} (check : Entries Value → Checked α) : Value → Checked α
  | .table fields => check fields
  | _ => fault .notRecord

/-- The fault of a number that is not within bounds, the upper one, if any, judged first; what does
not compare is too large. -/
def between (low : Number) (high : Option Number) (number : Number) : Option FaultKind :=
  if high.any fun bound => !number.le bound then some .tooLarge
  else if !low.le number then some .tooSmall
  else none

/-- A value that passes unless a fault is found in it. -/
def passing {α : Type} (found : α → Option FaultKind) (value : α) : Checked α :=
  match found value with
  | none => .ok value
  | some kind => fault kind

/-- The check of a field that must be there. -/
def required {α : Type} (name : String) (check : Value → Checked α) (fields : Entries Value) :
    Checked α :=
  match fields.find? name with
  | some value => (check value).inside name
  | none => .faulty [⟨[name], .missing⟩]

/-- The check of a field that has a default. -/
def optional {α : Type} (name : String) (default : α) (check : Value → Checked α)
    (fields : Entries Value) : Checked α :=
  match fields.find? name with
  | some value => (check value).inside name
  | none => .ok default

end DiceLab.Schema
