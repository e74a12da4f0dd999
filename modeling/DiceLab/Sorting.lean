/-! Sorting by a comparison that need not be an order: what does not compare stays where the search
for its place ends. -/

namespace DiceLab.Sorting

/-- Puts an item behind everything it is not less than, which is searched for by halving. -/
def insert {α : Type} (less : α → α → Bool) (item : α) (sorted : List α) : List α :=
  let before := sorted.take (sorted.length / 2)
  match _split : sorted.drop (sorted.length / 2) with
  | [] => [item]
  | middle :: behind =>
    if less item middle then insert less item before ++ middle :: behind
    else before ++ middle :: insert less item behind
termination_by sorted.length
decreasing_by
  all_goals
    have lengths := congrArg List.length _split
    simp only [List.length_drop, List.length_cons] at lengths
    grind

/-- The items up to the first that is less than the one before it, and those from there on. -/
def splitRising {α : Type} (less : α → α → Bool) : List α → List α × List α
  | first :: second :: rest =>
    if less second first then ([first], second :: rest)
    else
      let (run, behind) := splitRising less (second :: rest)
      (first :: run, behind)
  | items => (items, [])

/-- The items as long as each is less than the one before it, and those from there on. -/
def splitFalling {α : Type} (less : α → α → Bool) : List α → List α × List α
  | first :: second :: rest =>
    if less second first then
      let (run, behind) := splitFalling less (second :: rest)
      (first :: run, behind)
    else ([first], second :: rest)
  | items => (items, [])

/-- The items that are in order from the start, turned round if they fall, and those behind them. -/
def splitRun {α : Type} (less : α → α → Bool) (items : List α) : List α × List α :=
  match items with
  | first :: second :: _ =>
    if less second first then
      let (run, behind) := splitFalling less items
      (run.reverse, behind)
    else splitRising less items
  | _ => (items, [])

/-- Sorts by inserting the items behind the first run into it. -/
def sortByInsertion {α : Type} (less : α → α → Bool) (items : List α) : List α :=
  let (run, behind) := splitRun less items
  behind.foldl (fun sorted item => insert less item sorted) run

/-- The number of items from which they are merged and not inserted. -/
def mergeLength : Nat := 64

/-- Sorts by a comparison; where it is a total order, equal items keep their places. -/
def sort {α : Type} (less : α → α → Bool) (items : List α) : List α :=
  if items.length < mergeLength then sortByInsertion less items
  else items.mergeSort fun first second => !less second first

end DiceLab.Sorting
