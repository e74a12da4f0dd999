import DiceLab.Failure
import DiceLab.Sheet.Item
import DiceLab.Value

/-! Computations that warn, log and show things on their way to a result or a failure. -/

namespace DiceLab

/-- How important a log record is. -/
inductive Severity where
  | debug
  | info
deriving DecidableEq, Repr

/-- The rank of a severity on the scale of log levels. -/
def Severity.rank : Severity → Nat
  | .debug => 10
  | .info => 20

/-- The name of a severity. -/
def Severity.name : Severity → String
  | .debug => "DEBUG"
  | .info => "INFO"

/-- One log record. -/
structure LogRecord where
  severity : Severity
  logger : Text
  message : Text
deriving DecidableEq, Repr

/-- Something noticed on the way. -/
inductive Notice where
  | warning (text : Text)
  | log (record : LogRecord)
  | print (item : Sheet.Item)
deriving DecidableEq, Repr

/-- The warnings among the notices. -/
def Notice.warnings (notices : List Notice) : List Text :=
  notices.filterMap fun
    | .warning text => some text
    | _ => none

/-- The items shown among the notices. -/
def Notice.printed (notices : List Notice) : List Sheet.Item :=
  notices.filterMap fun
    | .print item => some item
    | _ => none

/-- The log records among the notices that reach a level. -/
def Notice.logged (level : Nat) (notices : List Notice) : List LogRecord :=
  notices.filterMap fun
    | .log record => if level ≤ record.severity.rank then some record else none
    | _ => none

/-- What a computation noticed, and its result or the failure that ended it. -/
structure Reported (α : Type) where
  notices : List Notice
  result : Except Failure α

namespace Reported

/-- Goes on with a result, keeping what was noticed before; a failure ends everything. -/
def andThen {α β : Type} (first : Reported α) (next : α → Reported β) : Reported β :=
  match first.result with
  | .ok value =>
    -- The notices of a step never depend on those before it.
    let second := next value
    ⟨first.notices ++ second.notices, second.result⟩
  | .error failure => ⟨first.notices, .error failure⟩

instance : Monad Reported where
  pure value := ⟨[], .ok value⟩
  bind := andThen

instance : MonadLift (Except Failure) Reported where
  monadLift result := ⟨[], result⟩

/-- Ends the computation. -/
def fail {α : Type} (failure : Failure) : Reported α := ⟨[], .error failure⟩

/-- Notices one thing. -/
def note (notice : Notice) : Reported Unit := ⟨[notice], .ok ()⟩

/-- Warns the user. -/
def warn (text : Text) : Reported Unit := note (.warning text)

/-- Shows an item. -/
def print (item : Sheet.Item) : Reported Unit := note (.print item)

@[simp] theorem pure_notices {α : Type} (value : α) : (pure value : Reported α).notices = [] := rfl

@[simp] theorem pure_result {α : Type} (value : α) :
    (pure value : Reported α).result = .ok value := rfl

/-- After a result, the notices of the next step follow those before it. -/
theorem bind_of_ok {α β : Type} {first : Reported α} {value : α} (next : α → Reported β)
    (ok : first.result = .ok value) :
    (first >>= next) = ⟨first.notices ++ (next value).notices, (next value).result⟩ := by
  show andThen first next = _
  simp [andThen, ok]

/-- A failure keeps the notices before it and nothing else. -/
theorem bind_of_error {α β : Type} {first : Reported α} {failure : Failure}
    (next : α → Reported β) (error : first.result = .error failure) :
    (first >>= next) = ⟨first.notices, .error failure⟩ := by
  show andThen first next = _
  simp [andThen, error]

instance : LawfulMonad Reported := LawfulMonad.mk' Reported
  (by
    intro α report
    rcases report with ⟨notices, _ | value⟩ <;> simp [Functor.map, andThen])
  (by
    intro α β value next
    simp [bind, andThen, pure])
  (by
    intro α β γ report next last
    rcases report with ⟨notices, _ | value⟩
    · simp [bind, andThen]
    · simp only [bind, andThen]
      rcases (next value) with ⟨_, _ | _⟩ <;> simp)

end Reported

/-- The logger of the engine. -/
def engineLogger : Text := "rollforge"

/-- The logger of the engine or of one of its parts. -/
def loggerName (part : Option Text) : Text :=
  match part with
  | none => engineLogger
  | some name => if name.isEmpty then engineLogger else engineLogger ++ "." ++ name

/-- A message followed by its context fields, when there are any. -/
def withContext (message : Text) (context : List (Text × Value)) : Except Failure Text := do
  if context.isEmpty then return message
  let fields ← context.mapM fun (key, value) => do
    let shown ← value.quoted
    return key ++ "=" ++ shown
  return message ++ " (" ++ Text.join ", " fields ++ ")"

/-- Writes a whole number into a message. -/
def Reported.write (value : Int) : Reported Text := Decimal.write value

/-- Logs a message of the engine with its context fields. -/
def Reported.log (severity : Severity) (message : Text) (context : List (Text × Value)) :
    Reported Unit := do
  let text ← withContext message context
  note (.log ⟨severity, engineLogger, text⟩)

/-- A computation on a state that outlives its failures. -/
def Session (σ α : Type) := σ → Reported α × σ

namespace Session

instance {σ : Type} : Monad (Session σ) where
  pure value := fun state => (pure value, state)
  bind first next := fun state =>
    match first state with
    | (⟨before, .ok value⟩, middle) =>
      match next value middle with
      | (⟨after, result⟩, last) => (⟨before ++ after, result⟩, last)
    -- The state stays as the failing step left it.
    | (⟨before, .error failure⟩, middle) => (⟨before, .error failure⟩, middle)

instance {σ : Type} : MonadLift Reported (Session σ) where
  monadLift report := fun state => (report, state)

instance {σ : Type} : MonadLift (Except Failure) (Session σ) where
  monadLift result := fun state => (⟨[], result⟩, state)

/-- The current state. -/
def get {σ : Type} : Session σ σ := fun state => (pure state, state)

/-- Replaces the state. -/
def set {σ : Type} (state : σ) : Session σ Unit := fun _ => (pure (), state)

/-- A computation on the state that cannot fail and notices nothing. -/
def ofState {σ α : Type} (step : σ → α × σ) : Session σ α := fun state =>
  let (value, next) := step state
  (pure value, next)

/-- Runs a computation on a part of the state. -/
def on {σ τ α : Type} (part : τ → σ) (update : σ → τ → τ) (action : Session σ α) : Session τ α :=
  fun whole =>
    let (report, next) := action (part whole)
    (report, update next whole)

end Session

end DiceLab
