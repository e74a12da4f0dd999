import DiceLab.Candidate
import DiceLab.Outcome
import DiceLab.Schema.Field

/-! Records of the engine built from plain fields. -/

namespace DiceLab.Schema

open Checked (fault)

/-- The two kinds of faces. -/
inductive FaceKind where
  | numeric
  | fudge
deriving DecidableEq, Repr

/-- The word for a kind of face. -/
def FaceKind.word : FaceKind → String
  | .numeric => "NUMERIC"
  | .fudge => "FUDGE"

/-- The kind of a face. -/
def FaceKind.of (face : Face) : FaceKind := if face.isFudge then .fudge else .numeric

/-- The kind of face with a given word. -/
def FaceKind.ofWord? (word : Text) : Option FaceKind :=
  [FaceKind.numeric, .fudge].find? fun kind => Text.ofString kind.word == word

/-- The face of a kind with a number of sides; only numeric faces have one, and it is positive. -/
def faceOf (kind : FaceKind) (sides : Option Int) : Checked Face :=
  let found :=
    match kind, sides with
    | .numeric, some sides => Face.ofSides? sides
    | .fudge, none => some .fudge
    | _, _ => none
  match found with
  | some face => .ok face
  | none => fault .inconsistent

/-- A face. -/
def face (fields : Entries Value) : Checked Face :=
  (Prod.mk <$> required "kind" (member FaceKind.ofWord?) fields <*>
    optional "sides" none (nullable whole) fields).andThen fun (kind, sides) => faceOf kind sides

/-- A sign, which any number equal to its factor stands for. A whole number of more than 64 bits is
not looked at. -/
def sign (value : Value) : Checked Sign :=
  let equals (factor : Int) : Bool := (value.number?.map (·.sameValue (.whole factor))).getD false
  if equals 1 then .ok .plus
  else if equals (-1) then .ok .minus
  else
    match value with
    | .whole number =>
      if -(twoTo 63 : Int) ≤ number ∧ number < twoTo 63 then fault .notSign else fault .wholeSize
    | _ => fault .notSign

/-- A number of dice: at least one. -/
def count (value : Value) : Checked { count : Nat // 0 < count } :=
  (whole value).andThen fun number =>
    if positive : 0 < number.toNat then .ok ⟨number.toNat, positive⟩ else fault .tooSmall

/-- A group of dice. -/
def term (fields : Entries Value) : Checked Term :=
  (fun count face sign => ⟨sign, count.1, face, count.2⟩) <$> required "count" count fields <*>
    required "face" (record face) fields <*> optional "sign" .plus sign fields

/-- A formula with the chunks that were not understood. -/
def reading (fields : Entries Value) : Checked Reading :=
  (fun terms modifier ignored => ⟨⟨terms, modifier⟩, ignored⟩) <$>
    optional "terms" [] (list (record term)) fields <*> optional "modifier" 0 whole fields <*>
    optional "ignored" [] (list text) fields

/-- The statistics of a formula. -/
def stats (fields : Entries Value) : Checked Stats :=
  Stats.mk <$> required "min" whole fields <*> required "max" whole fields <*>
    required "average" real fields

/-- A score from zero to a highest one. -/
def score (highest : Binary64) (value : Value) : Checked Binary64 :=
  (real value).andThen
    (passing fun score => between (.whole 0) (some (.real highest)) (.real score))

/-- A scored formula. -/
def candidate (fields : Entries Value) : Checked Candidate :=
  (fun text low high average fitScore fit shapeScore shape =>
    ⟨text, ⟨low, high, average⟩, fitScore, fit, shapeScore, shape⟩) <$>
  required "macro" text fields <*> required "min" whole fields <*> required "max" whole fields <*>
  required "average" real fields <*> required "fit_score" (score Fit.best) fields <*>
  required "fit_label" (member Fit.ofValue?) fields <*>
  required "distribution_score" (score Shape.highest) fields <*>
  required "distribution_label" (member Shape.ofValue?) fields

/-- The throw of a die with a face. -/
def thrown (face : Face) (fields : Entries Value) : Checked Throw :=
  (fun value sign => ⟨⟨sign, face⟩, value⟩) <$> required "value" whole fields <*>
    optional "sign" .plus sign fields

/-- The outcome of a roll with its throws. -/
def outcome (throws : List Throw) (fields : Entries Value) : Checked Outcome :=
  (fun total modifier => ⟨total, throws, modifier⟩) <$> required "total" whole fields <*>
    optional "modifier" 0 whole fields

end DiceLab.Schema
