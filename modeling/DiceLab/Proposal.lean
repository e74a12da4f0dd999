import DiceLab.Fit

/-! Proposals: formulas built from given faces so that their range comes near a target. -/

namespace DiceLab

namespace Proposal

/-- The largest gap that is closed with extra small dice. -/
def largestGap : Int := 4

/-- The most dice of one face used to cover the width of a target. -/
def mostDice : Int := 10

/-- One die of each face; a face that repeats the one before it is counted there. -/
def oneEach (faces : List Face) : List Term :=
  faces.foldr (fun face terms =>
    match terms with
    | term :: rest =>
      if term.face = face then ⟨.plus, term.count + 1, face, Nat.succ_pos _⟩ :: rest
      else ⟨.plus, 1, face, Nat.one_pos⟩ :: term :: rest
    | [] => [⟨.plus, 1, face, Nat.one_pos⟩]) []

/-- The sum of the means of faces, rounded at each step. -/
def meanSum (faces : List Face) : Except Failure Binary64 :=
  faces.foldlM (fun total face => do return total.add (← face.mean)) (Binary64.zero false)

/-- One die of each face with the modifier that brings the mean nearest to a wanted one. -/
def centered (average : Binary64) (faces : List Face) : Except Failure Formula := do
  let mean ← meanSum faces
  return ⟨oneEach faces, ← (Number.real (average.sub mean)).roundHalfUp⟩

/-- As many dice of one face as cover the width of the target, starting at its minimum. -/
def spanning (target : Target) (face : Face) : Except Failure (Option Formula) := do
  if face.count < 2 then return none
  let ratio ← wholeQuotient (target.max - target.min) (face.high - face.low)
  let count := (max 1 (min mostDice (← (Number.real ratio).roundHalfUp))).toNat
  if positive : 0 < count then
    return some ⟨[⟨.plus, count, face, positive⟩], target.min - count * face.low⟩
  else return none

/-- The formula with more dice behind it, when the gap they close is neither zero nor too large. -/
def extended (formula : Formula) (sign : Sign) (face : Face) (gap : Int) : List Formula :=
  if positive : 0 < gap.toNat then
    if gap ≤ largestGap then
      [{ formula with terms := formula.terms ++ [⟨sign, gap.toNat, face, positive⟩] }]
    else []
  else []

/-- Extensions by the die that shows 0 or 1: added dice raise the maximum alone, and dice taken away
lower the minimum alone. -/
def withBinary (target : Target) (face : Face) (formula : Formula) :
    Except Failure (List Formula) := do
  let stats ← formula.stats
  return extended formula .plus face (target.max - stats.max) ++
    extended formula .minus face (stats.min - target.min)

/-- Extensions by Fudge dice, which widen a range inside the target on both sides. -/
def withFudge (target : Target) (face : Face) (formula : Formula) :
    Except Failure (List Formula) := do
  let stats ← formula.stats
  return extended formula .plus face (min (stats.min - target.min) (target.max - stats.max))

/-- Every unordered pair of positions of a list, a position with itself included. -/
def pairs {α : Type} : List α → List (α × α)
  | [] => []
  | first :: rest => (first :: rest).map (fun second => (first, second)) ++ pairs rest

/-- Proposals followed by what a small die makes of each, when such a die was offered. -/
def extendAll (face : Option Face)
    (extend : Face → Formula → Except Failure (List Formula)) (proposals : List Formula) :
    Except Failure (List Formula) := do
  match face with
  | none => return proposals
  | some face => return proposals ++ (← proposals.mapM (extend face)).flatten

/-- Single dice, pairs, and groups as wide as the target, from the numeric faces; then extensions of
these by the binary die, and of all of them by Fudge dice. -/
def all (target : Target) (faces : List Face) : Except Failure (List Formula) := do
  let average ← wholeQuotient (target.min + target.max) 2
  -- The two small dice are not proposed on their own.
  let numeric := faces.filter fun face => !face.isFudge && !face.isBinary
  let singles ← numeric.mapM fun face => centered average [face]
  let doubles ← (pairs numeric).mapM fun pair => centered average [pair.1, pair.2]
  let spans ← numeric.mapM (spanning target)
  let plain := singles ++ doubles ++ spans.filterMap id
  let raised ← extendAll (faces.find? Face.isBinary) (withBinary target) plain
  extendAll (faces.find? Face.isFudge) (withFudge target) raised

end Proposal

end DiceLab
