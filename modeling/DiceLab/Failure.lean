import DiceLab.Text

/-! The causes for which a computation gives no result, and the wording of each. -/

namespace DiceLab

/-- What is wrong with one field of a record. -/
inductive FaultKind where
  | missing
  | notWhole
  | wholeText
  | wholeSize
  | fraction
  | notFinite
  | notReal
  | realText
  | notText
  | notList
  | notRecord
  | notMember
  | notSign
  | tooSmall
  | tooLarge
  | inconsistent
  /-- A text with surrogates where they cannot stand. -/
  | broken
  /-- Inconsistent in a way that no message can tell. -/
  | unwritable
deriving DecidableEq, Repr

/-- The code under which a fault is reported. -/
def FaultKind.code : FaultKind → String
  | .missing => "missing"
  | .notWhole => "int_type"
  | .wholeText => "int_parsing"
  | .wholeSize => "int_parsing_size"
  | .fraction => "int_from_float"
  | .notFinite => "finite_number"
  | .notReal => "float_type"
  | .realText => "float_parsing"
  | .notText => "string_type"
  | .notList => "list_type"
  | .notRecord => "model_type"
  | .notMember => "enum"
  | .notSign => "literal_error"
  | .tooSmall => "greater_than_equal"
  | .tooLarge => "less_than_equal"
  | .inconsistent => "value_error"
  | .broken => "string_unicode"
  | .unwritable => "value_error"

/-- A fault at a path of field names and list positions; the empty path is the record itself. -/
structure Fault where
  path : List String
  kind : FaultKind
deriving DecidableEq, Repr

/-- The path written with dots. -/
def Fault.location (fault : Fault) : String := ".".intercalate fault.path

/-- Why a computation has no result. -/
inductive Failure where
  /-- A text with more digits than may be read as one number. -/
  | tooManyDigits (count : Nat)
  /-- A number with more digits than may be written. -/
  | tooLongToWrite
  /-- A text, shown quoted, that is not a whole number. -/
  | notWholeNumber (quoted : Text)
  | nanToWhole
  | infinityToWhole
  | wholeTooLarge
  | quotientTooLarge
  /-- A number of repetitions beyond all positions. -/
  | beyondPositions
  /-- More repetitions than there is room for. -/
  | outOfRoom
  /-- A value of a kind that cannot be divided. -/
  | notDivisible (kind : String)
  /-- A value, shown quoted, that names no member of a family of labels. -/
  | unknownLabel (quoted : Text) (family : String)
  /-- A record with faulty fields. -/
  | invalid (faults : List Fault)
  /-- Bytes that are not text. -/
  | undecodable
  /-- A text that no bytes stand for. -/
  | unencodable
  /-- Values inside one another beyond every limit. -/
  | tooDeep
  /-- A value given to an action under a name that the action has for something else. -/
  | nameTaken (action : String) (name : String)
  /-- A settings file that is asked for without a name. -/
  | fileNotNamed
  /-- A settings file with a name in which a null character stands. -/
  | fileNameCut
  /-- A seed that is asked for but not given. -/
  | seedNotGiven
  /-- A target whose upper end is not given. -/
  | endNotGiven
deriving DecidableEq, Repr

/-- The limit on the length of numbers, as messages name it. -/
def limitText : String := "Exceeds the limit (4300 digits) for integer string conversion"

/-- How messages tell to raise that limit. -/
def adviceText : String := "; use sys.set_int_max_str_digits() to increase the limit"

/-- The wording of a failure, where there is one. -/
def Failure.message? : Failure → Option Text
  | .tooManyDigits count =>
    some (limitText ++ ": value has " ++ toString count ++ " digits" ++ adviceText)
  | .tooLongToWrite => some (limitText ++ adviceText)
  | .notWholeNumber quoted => some ("invalid literal for int() with base 10: " ++ quoted)
  | .nanToWhole => some "cannot convert float NaN to integer"
  | .infinityToWhole => some "cannot convert float infinity to integer"
  | .wholeTooLarge => some "int too large to convert to float"
  | .quotientTooLarge => some "integer division result too large for a float"
  | .beyondPositions => some "cannot fit 'int' into an index-sized integer"
  | .outOfRoom => some []
  | .notDivisible kind => some ("unsupported operand type(s) for /: '" ++ kind ++ "' and 'int'")
  | .unknownLabel quoted family => some (quoted ++ " is not a valid " ++ family)
  | .invalid _ => none
  | .undecodable => none
  | .unencodable => none
  | .tooDeep => none
  | .nameTaken action name =>
    some (action ++ "() got multiple values for argument '" ++ name ++ "'")
  | .fileNotNamed => some "expected str, bytes or os.PathLike object, not list"
  | .fileNameCut => some "embedded null byte"
  | .seedNotGiven => some "unhashable type: 'list'"
  | .endNotGiven => some "'>' not supported between instances of 'int' and 'list'"

end DiceLab
