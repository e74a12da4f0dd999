/-! Texts are sequences of code points: of characters, and of surrogates that stand alone. -/

namespace DiceLab

/-- A code point: a character, or a surrogate, which is half of a pair that stands for one. -/
inductive CodePoint where
  | char (value : Char)
  /-- The surrogate so far behind the first one. -/
  | surrogate (offset : Fin 0x800)
deriving DecidableEq, Repr

namespace CodePoint

instance : Coe Char CodePoint := ⟨.char⟩

/-- The first surrogate, behind which all others follow. -/
def firstSurrogate : Nat := 0xd800

/-- The number of a code point. -/
def number : CodePoint → Nat
  | .char value => value.toNat
  | .surrogate offset => firstSurrogate + offset

/-- The code point with a number; numbers beyond the last one stand for the first. -/
def ofNumber (number : Nat) : CodePoint :=
  if between : firstSurrogate ≤ number ∧ number - firstSurrogate < 0x800 then
    .surrogate ⟨number - firstSurrogate, between.2⟩
  else .char (Char.ofNat number)

/-- A code point is told by its number. -/
theorem ofNumber_number (point : CodePoint) : ofNumber point.number = point := by
  cases point with
  | surrogate offset => simp [number, ofNumber, offset.isLt]
  | char value =>
    have valid := value.valid
    have outside : ¬(firstSurrogate ≤ value.toNat ∧ value.toNat - firstSurrogate < 0x800) := by
      simp only [UInt32.isValidChar, Nat.isValidChar] at valid
      simp only [firstSurrogate, Char.toNat]
      omega
    simp [number, ofNumber, outside]

/-- Whether a code point is a character with a property. -/
def has (property : Char → Bool) : CodePoint → Bool
  | .char value => property value
  | .surrogate _ => false

/-- A code point with a change made to it, if it is a character. -/
def map (change : Char → Char) : CodePoint → CodePoint
  | .char value => .char (change value)
  | .surrogate offset => .surrogate offset

/-- Whether a code point is no character. -/
def isSurrogate : CodePoint → Bool
  | .char _ => false
  | .surrogate _ => true

end CodePoint

/-- A text. -/
abbrev Text := List CodePoint

namespace Text

/-- The text of a string. -/
def ofString (string : String) : Text := string.toList.map .char

instance : Coe String Text := ⟨ofString⟩

/-- The string of a text, which must not hold surrogates. -/
def string? (text : Text) : Option String :=
  String.ofList <$> text.mapM fun
    | .char value => some value
    | .surrogate _ => none

/-- A string is the string of its own text. -/
theorem string?_ofString (string : String) : (ofString string).string? = some string := by
  have chars (list : List Char) : (list.map CodePoint.char).mapM (fun
      | .char value => some value
      | .surrogate _ => none) = some list := by
    induction list with
    | nil => rfl
    | cons first rest inductive_step => simp [inductive_step]
  simp [string?, ofString, chars]

/-- Whether a text holds a surrogate, so that no bytes stand for it. -/
def isBroken (text : Text) : Bool := text.any CodePoint.isSurrogate

/-- Whether a text may stand before another one: by the first numbers that differ. -/
def inOrder : Text → Text → Bool
  | [], _ => true
  | _ :: _, [] => false
  | first :: rest, other :: others =>
    if first = other then inOrder rest others else first.number < other.number

/-- Texts one after another with a separator between them. -/
def join (separator : Text) (texts : List Text) : Text := separator.intercalate texts

end Text

end DiceLab
