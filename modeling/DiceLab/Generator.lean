import DiceLab.Candidate
import DiceLab.Face.Tag
import DiceLab.Proposal

/-! Candidates for a target, from an outside generator if it helps and from the search otherwise. -/

namespace DiceLab

namespace Generator

/-- Writes the faces of a search as one list of tags. -/
def tags (faces : List Face) : Except Failure (List Text) := faces.mapM Face.tag

/-- Warns about a target whose ends are swapped. -/
def warnSwapped (target : Target) : Reported Unit :=
  if target.max < target.min then do
    let low ← Reported.write target.min
    let high ← Reported.write target.max
    Reported.warn ("Target minimum " ++ low ++ " is above maximum " ++ high ++ ", swapping")
  else pure ()

/-- Ranks all proposals that faces make for a target whose ends are in order. -/
def rankProposals (target : Target) (faces : List Face) (limit : Value) :
    Reported (List Candidate) := do
  let proposals ← Proposal.all target faces
  -- The log names the target and the faces, so the search fails where these cannot be written.
  let low ← Reported.write target.min
  let high ← Reported.write target.max
  let used ← tags faces
  let count := toString proposals.length
  Reported.log .debug ("Proposed " ++ count ++ " combinations for [" ++ low ++ ", " ++ high ++ "]")
    [("faces", .text (Text.join "," used))]
  Candidate.rank (proposals.map fun formula => .reading { formula }) target limit

/-- Searches candidates for a target whose ends may be swapped, with the faces that tags name. -/
def search (target : Target) (available : List FaceTag) (limit : Value) :
    Reported (List Candidate) := do
  warnSwapped target
  let faces ← FaceTag.resolve available
  if faces.isEmpty then
    Reported.warn "No usable dice faces to generate combinations from"
    return []
  -- The ends are put in order before anything is proposed.
  else rankProposals target.ordered faces limit

/-- What an outside generator hands over once it is asked, one draft after another. -/
inductive Answer where
  /-- There is nothing more. -/
  | done
  /-- It fails with a message. -/
  | failed (message : Text)
  /-- It hands over a draft and goes on. -/
  | next (draft : Draft) (rest : Answer)

namespace Answer

/-- The answer that hands over some drafts and nothing more. -/
def drafts (all : List Draft) : Answer := all.foldr next done

/-- Gathers the drafts in which there is something to read, up to the end of the answer. -/
def usable : Answer → Except Text (List Draft)
  | .done => .ok []
  -- Whatever was handed over before is lost.
  | .failed message => .error message
  | .next draft rest => do
    let others ← rest.usable
    return if draft.isSome then draft :: others else others

end Answer

/-- The question put to an outside generator: an ordered target and the tags of the usable faces. -/
structure Request where
  target : Target
  tags : List Text

/-- Ranks what was handed over; after a failure, or when that was nothing, the search takes its
place. -/
def followUp (target : Target) (available : List FaceTag) (limit : Value) (request : Request)
    (answer : Answer) : Reported (List Candidate) := do
  match answer.usable with
  | .error message =>
    Reported.warn ("External combination generator failed: " ++ message ++ ", using fallback")
    -- Whatever goes wrong, the search goes on as it would have without a generator.
    search target available limit
  | .ok usable =>
    if usable.isEmpty then
      Reported.warn "External combination generator returned nothing, using fallback"
      search target available limit
    else Candidate.rank usable request.target limit

/-- Asks the outside generator, if there is one, and goes on with its answer; the state is that of
the generator. -/
def suggestFrom {σ : Type} (target : Target) (available : List FaceTag) (limit : Value)
    (generator : Option (Request → σ → Answer × σ)) : Session σ (List Candidate) := do
  match generator with
  | none => search target available limit
  | some ask =>
    -- The generator is asked for the same faces that the search would use.
    let faces ← FaceTag.resolve available
    let request : Request := ⟨target.ordered, ← tags faces⟩
    let answer ← Session.ofState (ask request)
    followUp target available limit request answer

/-- A generator that notes every request put to it. -/
def noting {σ : Type} (ask : Request → σ → Answer × σ) (request : Request)
    (state : σ × List Request) : Answer × σ × List Request :=
  let (answer, next) := ask request state.1
  (answer, next, state.2 ++ [request])

/-- Suggests candidates with a generator that answers every request in one way, and gives the
requests that were put to it. -/
def suggest (target : Target) (available : List FaceTag) (limit : Value)
    (generator : Option (Request → Answer)) : Reported (List Request × List Candidate) :=
  let noted := generator.map fun answer => noting fun request (state : Unit) =>
    (answer request, state)
  let (report, _, requests) := suggestFrom target available limit noted ((), [])
  ⟨report.notices, report.result.map fun candidates => (requests, candidates)⟩

end Generator

end DiceLab
