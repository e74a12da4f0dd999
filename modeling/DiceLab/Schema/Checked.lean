import DiceLab.Failure

/-! Checks that go on after a fault, so that every faulty field of a record is reported. -/

namespace DiceLab

/-- What a check makes of its subject: a value, or all faults in field order. -/
inductive Checked (α : Type) where
  | ok (value : α)
  | faulty (faults : List Fault)

namespace Checked

/-- Goes on with a value that passed; a check of the whole only runs when all parts passed. -/
def andThen {α β : Type} (first : Checked α) (next : α → Checked β) : Checked β :=
  match first with
  | .ok value => next value
  | .faulty faults => .faulty faults

/-- Applies what one check gave to what another one gave; faults of both add up. -/
def apply {α β : Type} (first : Checked (α → β)) (second : Checked α) : Checked β :=
  match first, second with
  | .ok function, .ok value => .ok (function value)
  | .ok _, .faulty faults => .faulty faults
  | .faulty faults, .ok _ => .faulty faults
  | .faulty before, .faulty after => .faulty (before ++ after)

instance : Applicative Checked where
  pure := ok
  seq first second := apply first (second ())

/-- One fault of the subject as a whole. -/
def fault {α : Type} (kind : FaultKind) : Checked α := .faulty [⟨[], kind⟩]

/-- The check of a part that is found behind one more step. -/
def inside {α : Type} (step : String) : Checked α → Checked α
  | .ok value => .ok value
  | .faulty faults => .faulty (faults.map fun fault => { fault with path := step :: fault.path })

/-- The checked value, or the failure that tells all faults, if they can be told. -/
def result {α : Type} : Checked α → Except Failure α
  | .ok value => .ok value
  | .faulty faults =>
    if faults.any fun fault => fault.kind = .unwritable then .error .unencodable
    else .error (.invalid faults)

end Checked

end DiceLab
