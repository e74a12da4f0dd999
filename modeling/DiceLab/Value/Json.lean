import DiceLab.Decimal.Scientific
import DiceLab.Entries
import DiceLab.Value

/-! Values from JSON text; the first thing wrong in reading order is what is reported. -/

namespace DiceLab.Json

/-- The ways in which a text can fail to be a value. -/
inductive JsonFault where
  | malformed
  | tooManyDigits (count : Nat)
  | tooDeep
deriving DecidableEq, Repr

/-- White space between tokens. -/
def isSpace (char : Char) : Bool := char == ' ' || char == '\t' || char == '\n' || char == '\r'

/-- The text behind any white space. -/
def skipSpace (text : Text) : Text := text.dropWhile (CodePoint.has isSpace)

/-- The value of a hexadecimal digit. -/
def hexValue? (point : CodePoint) : Option Nat :=
  let code := point.number
  if 0x30 ≤ code ∧ code ≤ 0x39 then some (code - 0x30)
  else if 0x61 ≤ code ∧ code ≤ 0x66 then some (code - 0x61 + 10)
  else if 0x41 ≤ code ∧ code ≤ 0x46 then some (code - 0x41 + 10)
  else none

/-- The number that hexadecimal digits stand for. -/
def hexNumber? (digits : Text) : Option Nat :=
  digits.foldlM (fun value digit => (hexValue? digit).map (value * 16 + ·)) 0

/-- What a single character behind a backslash stands for. -/
def unescape? : CodePoint → Option Char
  | .char '\x22' => some '\x22'
  | .char '\\' => some '\\'
  | .char '/' => some '/'
  | .char 'b' => some '\x08'
  | .char 'f' => some '\x0c'
  | .char 'n' => some '\n'
  | .char 'r' => some '\r'
  | .char 't' => some '\t'
  | _ => none

/-- The first number beyond the ones that a single unit reaches. -/
def firstPaired : Nat := 0x10000

/-- The first of the low surrogates; the high ones stand before them. -/
def firstLow : Nat := 0xdc00

/-- The surrogates of either kind. -/
def halfCount : Nat := 0x400

/-- Whether a unit is a high surrogate, which a low one may complete. -/
def isHigh (unit : Nat) : Bool := CodePoint.firstSurrogate ≤ unit && unit < firstLow

/-- Whether a unit is a low surrogate. -/
def isLow (unit : Nat) : Bool := firstLow ≤ unit && unit < firstLow + halfCount

/-- The number that a high and a low surrogate stand for together. -/
def pairOf (high low : Nat) : Nat :=
  firstPaired + (high - CodePoint.firstSurrogate) * halfCount + (low - firstLow)

/-- Puts a unit in front of the numbers behind it; a high and a low surrogate become one. -/
def attachUnit (behind : List Nat) (unit : Nat) : List Nat :=
  match behind with
  | [] => [unit]
  | next :: rest =>
    if isHigh unit && isLow next then pairOf unit next :: rest else unit :: next :: rest

/-- The text made of units, which are given latest first. -/
def textOf (units : List Nat) : Text := (units.foldl attachUnit []).map .ofNumber

/-- Reads up to the closing quote; the units before are given latest first. -/
def readText (units : List Nat) : Text → Except JsonFault (Text × Text)
  | [] => .error .malformed
  | .char '\x22' :: rest => .ok (textOf units, rest)
  | .char '\\' :: .char 'u' :: first :: second :: third :: fourth :: rest =>
    match hexNumber? [first, second, third, fourth] with
    | some unit => readText (unit :: units) rest
    | none => .error .malformed
  | .char '\\' :: letter :: rest =>
    match unescape? letter with
    | some meant => readText (meant.toNat :: units) rest
    | none => .error .malformed
  | point :: rest =>
    if point.number < 0x20 then .error .malformed else readText (point.number :: units) rest

/-- The words that stand for values. -/
def wordValues : List (String × Value) := [
  ("null", .null), ("true", .truth true), ("false", .truth false), ("NaN", .real .nan),
  ("Infinity", .real (.infinite false)), ("-Infinity", .real (.infinite true))]

/-- The whole part of a number: a leading zero stands alone. -/
def takeWhole (text : Text) : Text × Text :=
  match text with
  | .char '0' :: rest => ([Decimal.zeroDigit], rest)
  | _ => Decimal.takeAscii text

/-- What a text may hold; what has no limit here is only limited by the text. -/
structure Limits where
  /-- The most digits of a whole number. -/
  digits : Option Nat := none
  /-- The most lists and tables inside one another. -/
  depth : Option Nat := none

/-- The limits on files. -/
def Limits.ofFiles : Limits where
  digits := some Decimal.digitLimit
  depth := some 990

/-- Reads a number: whole without a fraction and a power of ten, otherwise binary64. -/
def readNumber (limits : Limits) (text : Text) : Except JsonFault (Value × Text) :=
  let negative := text.head? == some (.char '-')
  let body := if negative then text.drop 1 else text
  let (whole, behind) := takeWhole body
  let (fraction, behind) := Decimal.takeFraction behind
  let (exponent, rest) := Decimal.takeExponent behind
  if whole.isEmpty then .error .malformed
  else if fraction.isNone && exponent.isNone then
    if limits.digits.any fun most => most < whole.length then .error (.tooManyDigits whole.length)
    else
      let value : Int := Decimal.valueOf whole
      .ok (.whole (if negative then -value else value), rest)
  else .ok (.real (Decimal.ofParts negative whole (fraction.getD []) (exponent.getD 0)), rest)

/-- Reads a word or a number. -/
def readPlain (limits : Limits) (text : Text) : Except JsonFault (Value × Text) :=
  match wordValues.find? fun word => (Text.ofString word.1).isPrefixOf text with
  | some (word, value) => .ok (value, text.drop word.length)
  | none => readNumber limits text

/-- Reads a key and the colon behind it. -/
def readKey (text : Text) : Except JsonFault (Text × Text) :=
  match skipSpace text with
  | .char '\x22' :: rest => do
    let (key, rest) ← readText [] rest
    match skipSpace rest with
    | .char ':' :: rest => .ok (key, rest)
    | _ => .error .malformed
  | _ => .error .malformed

mutual

/-- Reads a value with room for so many lists and tables inside one another; every step of the fuel
goes with a token. -/
def readValue (limits : Limits) :
    Nat → Nat → Text → Except JsonFault (Value × Text)
  | 0, _, _ => .error .malformed
  | fuel + 1, room, text =>
    match skipSpace text with
    | .char '\x22' :: rest => do
      let (value, rest) ← readText [] rest
      .ok (.text value, rest)
    | .char '[' :: rest =>
      match room, skipSpace rest with
      | 0, _ => .error .tooDeep
      | _ + 1, .char ']' :: rest => .ok (.list [], rest)
      | room + 1, rest => do
        let (items, rest) ← readItems limits fuel room rest
        .ok (.list items, rest)
    | .char '\x7b' :: rest =>
      match room, skipSpace rest with
      | 0, _ => .error .tooDeep
      | _ + 1, .char '\x7d' :: rest => .ok (.table [], rest)
      | room + 1, rest => do
        let (entries, rest) ← readEntries limits fuel room [] rest
        .ok (.table entries, rest)
    | plain => readPlain limits plain

/-- Reads the items of a list up to its end. -/
def readItems (limits : Limits) :
    Nat → Nat → Text → Except JsonFault (List Value × Text)
  | 0, _, _ => .error .malformed
  | fuel + 1, room, text => do
    let (item, rest) ← readValue limits fuel room text
    match skipSpace rest with
    | .char ',' :: rest => do
      let (items, rest) ← readItems limits fuel room rest
      .ok (item :: items, rest)
    | .char ']' :: rest => .ok ([item], rest)
    | _ => .error .malformed

/-- Reads the entries of a table up to its end, behind those already stored. -/
def readEntries (limits : Limits) :
    Nat → Nat → Entries Value → Text → Except JsonFault (Entries Value × Text)
  | 0, _, _, _ => .error .malformed
  | fuel + 1, room, stored, text => do
    let (key, rest) ← readKey text
    let (value, rest) ← readValue limits fuel room rest
    let stored := stored.store key value
    match skipSpace rest with
    | .char ',' :: rest => readEntries limits fuel room stored rest
    | .char '\x7d' :: rest => .ok (stored, rest)
    | _ => .error .malformed

end

/-- The value a whole text within limits stands for. -/
def parse (limits : Limits) (text : Text) : Except JsonFault Value := do
  -- Two steps for each code point are more than enough, and none opens more than one list.
  let (value, rest) ← readValue limits (2 * text.length + 2) (limits.depth.getD text.length) text
  if (skipSpace rest).isEmpty then .ok value else .error .malformed

end DiceLab.Json
