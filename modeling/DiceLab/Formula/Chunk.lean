import DiceLab.Formula

/-! The pieces a formula is written in: each starts with a die, with a number, or with neither. -/

namespace DiceLab

/-- What the text after the letter of a die says about its face. -/
inductive SidesText where
  | digits (run : Text)
  | fudge
deriving DecidableEq

/-- What a chunk starts with, and the text behind it. -/
inductive Lead where
  | die (sign : Sign) (count : Text) (sides : SidesText) (rest : Text)
  | number (sign : Sign) (digits rest : Text)
  | neither
deriving DecidableEq

namespace Chunk

/-- Whether a code point starts a new chunk. -/
def isSign (point : CodePoint) : Bool := point == '+' || point == '-'

/-- Puts a code point in front of the chunks behind it, which keep to themselves after a sign. -/
def attach (point : CodePoint) (chunks : List Text) : List Text :=
  match chunks with
  | [] => [[point]]
  | chunk :: rest =>
    -- Only the first code point of a chunk can be a sign, so no other one is looked at.
    if (chunk.head?.map isSign).getD false then [point] :: chunk :: rest
    else (point :: chunk) :: rest

/-- Cuts a text before every sign; no chunk is empty. -/
def cut (text : Text) : List Text := text.foldr attach []

/-- Splits off a sign; its absence means plus. -/
def takeSign : Text → Sign × Text
  | .char '-' :: rest => (.minus, rest)
  | .char '+' :: rest => (.plus, rest)
  | text => (.plus, text)

/-- Splits off the longest run of digits. -/
def takeDigits (text : Text) : Text × Text :=
  (text.takeWhile Decimal.isDigit, text.dropWhile Decimal.isDigit)

/-- What follows the letter of a die: the letter of the Fudge die or at least one digit. -/
def takeSides (text : Text) : Option (SidesText × Text) :=
  match text with
  | [] => none
  | letter :: rest =>
    if letter = 'f' ∨ letter = 'F' then some (.fudge, rest)
    else
      let (digits, behind) := takeDigits text
      -- Without digits there are no sides, so the letter before them starts no die.
      if digits.isEmpty then none else some (.digits digits, behind)

/-- What a text behind a sign and a run of digits makes of them. -/
def leadOf (sign : Sign) (digits text : Text) : Lead :=
  -- A die is tried first, since its count alone would pass for a number.
  let die : Option (SidesText × Text) :=
    match text with
    | .char 'd' :: rest => takeSides rest
    | .char 'D' :: rest => takeSides rest
    | _ => none
  match die with
  | some (sides, rest) => .die sign digits sides rest
  | none => if digits.isEmpty then .neither else .number sign digits text

/-- What a chunk starts with. -/
def lead (chunk : Text) : Lead :=
  let (sign, body) := takeSign chunk
  let (digits, rest) := takeDigits body
  leadOf sign digits rest

/-- The face that the text after the letter stands for, when it has any sides. -/
def readSides : SidesText → Except Failure (Option Face)
  | .fudge => .ok (some .fudge)
  | .digits run => do return Face.ofSides? (← Decimal.readDigits run)

/-- The number of dice that the text before the letter stands for; none is written for one. -/
def readCount (count : Text) : Except Failure Nat :=
  if count.isEmpty then .ok 1 else Decimal.readDigits count

/-- The term with a number of dice of a face, when there are any of either. -/
def termOf (sign : Sign) (count : Nat) (face : Option Face) : Option Term :=
  match face with
  | none => none
  | some face => if positive : 0 < count then some ⟨sign, count, face, positive⟩ else none

/-- What a chunk adds to a formula. -/
inductive Part where
  | nothing
  | term (term : Term)
  | flat (value : Int)
deriving DecidableEq

/-- What a chunk adds, and the text behind that part; a chunk that adds nothing is all behind. -/
def read (chunk : Text) : Except Failure (Part × Text) :=
  match lead chunk with
  | .neither => .ok (.nothing, chunk)
  | .number sign digits rest => do
    return (.flat (sign.factor * (← Decimal.readDigits digits)), rest)
  | .die sign countText sides rest => do
    -- The number of dice is read before the sides.
    let count ← readCount countText
    let face ← readSides sides
    match termOf sign count face with
    | some term => return (.term term, rest)
    -- A die without dice or without sides is not read as a number instead.
    | none => return (.nothing, chunk)

end Chunk

end DiceLab
