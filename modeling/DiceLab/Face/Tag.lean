import DiceLab.Formula.Reading

/-! Face tags: the text of one die, with or without its letter, or a bare number of sides. -/

namespace DiceLab

/-- A face as callers name it: already a face, or a value to be read. -/
inductive FaceTag where
  | face (face : Face)
  | value (value : Value)

namespace FaceTag

/-- The face a squeezed text names; the letter of the die may be missing. -/
def readText (text : Text) : Except Failure (Option Face) :=
  let sides :=
    match text with
    | .char 'd' :: rest => rest
    | .char 'D' :: rest => rest
    | bare => bare
  match Chunk.takeSides sides with
  -- Nothing may stand behind the sides.
  | some (found, []) => Chunk.readSides found
  | _ => .ok none

/-- Reads a face tag; a tag that names no face draws a warning. -/
def read : FaceTag → Reported (Option Face)
  | .face known => return some known
  | .value given => do
    -- A whole number names itself, anything else is taken through its text.
    let named ← match given with
      | .whole sides => Value.text <$> Reported.write sides
      | other => pure other
    let text ← ensureText "face tag" "" named
    match ← (readText text.squeeze : Except Failure (Option Face)) with
    | some found => return some found
    | none =>
      let shown ← named.shown
      Reported.warn ("Unknown dice face '" ++ shown ++ "'")
      return none

/-- The order of faces: numeric ones by their sides, the Fudge die last. -/
def inOrder (first second : Face) : Bool :=
  match first.sides?, second.sides? with
  | some left, some right => left ≤ right
  | none, some _ => false
  | _, none => true

/-- The faces in order without repetitions. -/
def distinct (faces : List Face) : List Face := faces.eraseDups.mergeSort inOrder

/-- The distinct faces that tags name, in order. -/
def resolve (tags : List FaceTag) : Reported (List Face) := do
  return distinct ((← tags.mapM read).filterMap id)

end FaceTag

end DiceLab
