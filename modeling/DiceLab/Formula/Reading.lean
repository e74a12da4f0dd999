import DiceLab.Coercion
import DiceLab.Formula.Chunk

/-! Reading a formula from text: what is understood is kept, and every other chunk is reported. -/

namespace DiceLab

/-- A formula and the chunks that were not fully understood. -/
structure Reading where
  formula : Formula := {}
  ignored : List Text := []
deriving DecidableEq

/-- A chunk, what it adds to the formula, and the text behind that. -/
structure Piece where
  chunk : Text
  part : Chunk.Part
  rest : Text
deriving DecidableEq

namespace Piece

/-- Whether the whole chunk was understood. -/
def isWhole (piece : Piece) : Bool := piece.rest.isEmpty

/-- The dice a piece adds. -/
def term? (piece : Piece) : Option Term :=
  match piece.part with
  | .term term => some term
  | _ => none

/-- The flat number a piece adds. -/
def flat (piece : Piece) : Int :=
  match piece.part with
  | .flat value => value
  | _ => 0

/-- The warning about a chunk that was not understood as a whole. -/
def warning (piece : Piece) : Text :=
  match piece.part with
  | .nothing => "Ignoring unparseable chunk '" ++ piece.chunk ++ "' in dice macro"
  | _ => "Ignoring trailing '" ++ piece.rest ++ "' of chunk '" ++ piece.chunk ++ "'"

/-- Reads a chunk, with a warning unless all of it was understood. -/
def read (chunk : Text) : Reported Piece := do
  let (part, rest) ← Chunk.read chunk
  -- What was understood is kept even if the chunk goes on behind it.
  let piece : Piece := ⟨chunk, part, rest⟩
  if !piece.isWhole then Reported.warn piece.warning
  return piece

end Piece

namespace Reading

/-- The formula made of pieces in their order, and the chunks of those not understood. -/
def ofPieces (pieces : List Piece) : Reading where
  formula := {
    terms := pieces.filterMap Piece.term?
    modifier := wholeTotal (pieces.map Piece.flat) }
  ignored := (pieces.filter fun piece => !piece.isWhole).map Piece.chunk

/-- Whether every chunk was understood. -/
def isComplete (reading : Reading) : Bool := reading.ignored.isEmpty

/-- The logger for what was read. -/
def readingLogger : Text := "root"

/-- Reads a formula; blanks do not count, and a text of blanks is the empty formula. -/
def ofText (text : Text) : Reported Reading := do
  let squeezed := text.squeeze
  -- Nothing is logged about a text of blanks.
  if squeezed.isEmpty then return {}
  let reading := ofPieces (← (Chunk.cut squeezed).mapM Piece.read)
  let shown ← reading.formula.text
  Reported.note (.log ⟨.debug, readingLogger, "Parsed '" ++ text ++ "' → " ++ shown⟩)
  return reading

/-- The normal text of the formula that a text stands for. -/
def normalize (text : Text) : Reported Text := do
  let reading ← ofText text
  reading.formula.text

end Reading

/-- A formula as callers hand it over: already read, or a value to be read. -/
inductive Draft where
  | value (value : Value)
  | reading (reading : Reading)

namespace Draft

/-- Whether there is anything to read. -/
def isSome : Draft → Bool
  | .value given => given.isSome
  | .reading _ => true

/-- The name under which an already read formula is reported where a text is expected. -/
def readingKind : Text := "ParsedMacro"

/-- The text of a draft, with a warning when it was not a text. -/
def ensureText (name : Text) : Draft → Reported Text
  | .value given => DiceLab.ensureText name "" given
  | .reading known => do
    let text ← known.formula.text
    warnNotText name readingKind text
    return text

/-- Reads a draft through its text. -/
def parse (draft : Draft) : Reported Reading := do
  Reading.ofText (← draft.ensureText "macro")

/-- What a draft stands for: a formula that was already read is kept as it is. -/
def read : Draft → Reported Reading
  | .reading known => return known
  | draft => draft.parse

/-- The normal text of the formula a draft stands for, read through its text. -/
def normalize (draft : Draft) : Reported Text := do
  (← draft.parse).formula.text

end Draft

end DiceLab
