import DiceLab.Catalog.Folder

/-! The one catalog that all parts of a session share: its first use loads it. -/

namespace DiceLab.Catalog

/-- A computation on the shared catalog, if it was loaded before. -/
abbrev Shared (α : Type) := Session (Option Catalog) α

namespace Shared

/-- The shared catalog; a folder only counts when nothing was loaded before. -/
def obtain (folder : Option Folder) : Shared Catalog := do
  match ← Session.get with
  | some catalog => return catalog
  -- The first use loads the catalog, which is kept unless the load fails.
  | none =>
    let (report, catalog) := load folder usualLocale
    (report : Reported Unit)
    Session.set (some catalog)
    return catalog

/-- Obtains the shared catalog, and tells whether it was loaded before. -/
def create (folder : Option Folder) : Shared Bool := do
  let before ← Session.get
  let _ ← obtain folder
  return before.isSome

/-- Loads the shared catalog anew; a failure leaves it with what was loaded before that. -/
def reload (folder : Option Folder) (default : Text) : Shared Unit := do
  let _ ← obtain none
  let (report, catalog) := load folder default
  Session.set (some catalog)
  (report : Reported Unit)

/-- Uses the shared catalog. -/
def use {α : Type} (action : Catalog → Reported α) : Shared α := do
  let catalog ← obtain none
  (action catalog : Reported α)

end Shared

end DiceLab.Catalog
