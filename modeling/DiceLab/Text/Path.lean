import DiceLab.Text

/-! Paths of files as texts of steps divided by slashes. -/

namespace DiceLab.Text

/-- Whether a code point stands for bytes in a path: each character does, and so does a surrogate
that takes the place of a byte outside text. -/
def standsForBytes (point : CodePoint) : Bool :=
  !point.isSurrogate || (0xdc80 ≤ point.number && point.number ≤ 0xdcff)

/-- Whether a path stands for bytes. -/
def hasBytes (path : Text) : Bool := path.all standsForBytes

/-- The root that a path starts from: two slashes are a root of their own, more are as good as one.
-/
def rootOf (path : Text) : Text :=
  match (path.takeWhile (· == .char '/')).length with
  | 0 => []
  | 2 => "//"
  | _ => "/"

/-- Puts a code point in front of the steps behind it; a slash ends the step before it. -/
def pushStep (point : CodePoint) (steps : List Text) : List Text :=
  if point == '/' then [] :: steps
  else match steps with
    | [] => [[point]]
    | step :: rest => (point :: step) :: rest

/-- The steps of a path; some may be empty. -/
def steps (path : Text) : List Text := path.foldr pushStep [[]]

/-- The plain form of a path: without empty steps and without steps that stay where they are. -/
def plainPath (path : Text) : Text :=
  let moving := (steps path).filter fun step => !step.isEmpty && step != ofString "."
  let plain := rootOf path ++ join "/" moving
  if plain.isEmpty then "." else plain

end DiceLab.Text
