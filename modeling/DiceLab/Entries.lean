import DiceLab.Text

/-! Entries under text keys, in the order in which their keys first came. -/

namespace DiceLab

/-- Values under text keys. -/
abbrev Entries (α : Type) := List (Text × α)

namespace Entries

/-- The first value under a key. -/
def find? {α : Type} (key : Text) (entries : Entries α) : Option α :=
  (List.find? (fun entry => entry.1 == key) entries).map Prod.snd

/-- Stores a value under a key: an old entry keeps its place, a new one goes last. -/
def store {α : Type} (key : Text) (value : α) (entries : Entries α) : Entries α :=
  if entries.any fun entry => entry.1 == key then
    entries.map fun entry => if entry.1 == key then (key, value) else entry
  else entries ++ [(key, value)]

/-- Stores entries one after another behind others. -/
def storeAll {α : Type} (added entries : Entries α) : Entries α :=
  added.foldl (fun stored entry => store entry.1 entry.2 stored) entries

end Entries

end DiceLab
