import DiceLab.Decimal.Real
import DiceLab.Number

/-! Values of any kind, as they come from files and callers, and their text. -/

namespace DiceLab

/-- A value whose kind is known only when it is looked at; entries keep their order. -/
inductive Value where
  | null
  | truth (value : Bool)
  | whole (value : Int)
  | real (value : Binary64)
  | text (value : Text)
  | list (items : List Value)
  | table (entries : List (Text × Value))

namespace Value

instance : Inhabited Value := ⟨.null⟩

/-- The name of a value's kind. -/
def kindName : Value → String
  | .null => "NoneType"
  | .truth _ => "bool"
  | .whole _ => "int"
  | .real _ => "float"
  | .text _ => "str"
  | .list _ => "list"
  | .table _ => "dict"

/-- Whether a value counts as something: not null, false, zero, or empty. -/
def isSome : Value → Bool
  | .null => false
  | .truth value => value
  | .whole value => value != 0
  | .real value => !value.isZero
  | .text value => !value.isEmpty
  | .list items => !items.isEmpty
  | .table entries => !entries.isEmpty

/-- The number a value is; truth values count as one and zero. -/
def number? : Value → Option Number
  | .truth value => some (.whole (if value then 1 else 0))
  | .whole value => some (.whole value)
  | .real value => some (.real value)
  | _ => none

mutual

/-- The text of a value as it stands inside another one, where texts are quoted. -/
def quoted : Value → Except Failure Text
  | .null => .ok "None"
  | .truth true => .ok "True"
  | .truth false => .ok "False"
  | .whole value => Decimal.write value
  | .real value => .ok (Decimal.fullText value)
  | .text value => .ok (Text.quoted value)
  | .list items => do return "[" ++ Text.join ", " (← quotedItems items) ++ "]"
  | .table entries => do return "\x7b" ++ Text.join ", " (← quotedEntries entries) ++ "\x7d"

/-- The texts of the items of a list. -/
def quotedItems : List Value → Except Failure (List Text)
  | [] => .ok []
  | item :: rest => do
    let shown ← quoted item
    return shown :: (← quotedItems rest)

/-- The texts of the entries of a table. -/
def quotedEntries : List (Text × Value) → Except Failure (List Text)
  | [] => .ok []
  | (key, item) :: rest => do
    let shown ← quoted item
    return (Text.quoted key ++ ": " ++ shown) :: (← quotedEntries rest)

end

/-- The text of a value on its own: a text stands for itself. -/
def shown : Value → Except Failure Text
  | .text value => .ok value
  | value => quoted value

end Value

end DiceLab
