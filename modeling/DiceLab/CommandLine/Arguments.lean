import DiceLab.CommandLine.Taking
import DiceLab.Text.Path

/-! The arguments of the program: general switches, then one of its commands. -/

namespace DiceLab.CommandLine

/-- What a switch says: it may be missing, and what it was given may be nothing. -/
inductive Choice (α : Type) where
  | missing
  | nothing
  | made (value : α)
deriving DecidableEq, Repr

/-- The value that was chosen, if there is one. -/
def Choice.value? {α : Type} : Choice α → Option α
  | .made value => some value
  | _ => none

/-- A choice under a function of what was chosen. -/
def Choice.map {α β : Type} (change : α → β) : Choice α → Choice β
  | .missing => .missing
  | .nothing => .nothing
  | .made value => .made (change value)

/-- What the program is asked to do. -/
inductive Command where
  | stats (formula : Text)
  | roll (formula : Text)
  | simulate (formula : Text) (runs : Option Int)
  /-- The greatest total is missing when the separator stands in its place. -/
  | generate (min : Int) (max : Option Int) (faces : List Text) (limit : Option Int)
  | interactive
deriving DecidableEq, Repr

/-- The name of a command. -/
def Command.name : Command → String
  | .stats _ => "stats"
  | .roll _ => "roll"
  | .simulate _ _ => "simulate"
  | .generate _ _ _ _ => "generate"
  | .interactive => "interactive"

/-- A whole command line. -/
structure Arguments where
  /-- The path of the settings file, in its plain form. -/
  config : Choice Text
  locale : Choice Text
  seed : Choice Int
  verbose : Bool
  command : Command
deriving DecidableEq, Repr

/-- The switch that asks for help. -/
def helpSwitch : Switch := ⟨["-h", "--help"], .nothing, .help⟩

/-- The switches before the command. -/
def generalGrammar : Grammar where
  switches := [helpSwitch, ⟨["--config"], .one, .text⟩, ⟨["--locale"], .one, .text⟩,
    ⟨["--seed"], .one, .whole⟩, ⟨["-v", "--verbose"], .nothing, .text⟩]
  places := []
  endsInCommand := true

/-- The place for a formula. -/
def formulaPlace : Place := ⟨"formula", .text⟩

/-- The arguments of a command with a given name. -/
def commandGrammar? (name : Text) : Option Grammar :=
  match name.string? with
  | some "stats" => some ⟨[helpSwitch], [formulaPlace], false⟩
  | some "roll" => some ⟨[helpSwitch], [formulaPlace], false⟩
  | some "simulate" => some ⟨[helpSwitch, ⟨["-n", "--runs"], .one, .whole⟩], [formulaPlace], false⟩
  | some "generate" => some ⟨[helpSwitch, ⟨["-f", "--faces"], .many, .text⟩,
      ⟨["-k", "--max-candidates"], .one, .whole⟩], [⟨"min", .whole⟩, ⟨"max", .whole⟩], false⟩
  | some "interactive" => some ⟨[helpSwitch], [], false⟩
  | _ => none

/-- The text given under a name. -/
def Taken.text (taken : Taken) (name : Text) : Choice Text :=
  match taken.given.find? name with
  | some (.text value) => .made value
  | some .nothing => .nothing
  | _ => .missing

/-- The whole number given under a name. -/
def Taken.whole (taken : Taken) (name : Text) : Choice Int :=
  match taken.given.find? name with
  | some (.whole value) => .made value
  | some .nothing => .nothing
  | _ => .missing

/-- The texts given under a name. -/
def Taken.texts (taken : Taken) (name : Text) : List Text :=
  match taken.given.find? name with
  | some (.texts values) => values
  | _ => []

/-- The command of a name with its arguments, when none of them is missing. -/
def commandOf? (name : Text) (taken : Taken) : Option Command :=
  let formula := (taken.text formulaPlace.name).value?
  match name.string? with
  | some "stats" => formula.map .stats
  | some "roll" => formula.map .roll
  | some "simulate" => formula.map fun formula => .simulate formula (taken.whole "runs").value?
  | some "generate" => do
    return .generate (← (taken.whole "min").value?) (taken.whole "max").value?
      (taken.texts "faces") (taken.whole "max-candidates").value?
  | some "interactive" => some .interactive
  | _ => none

/-- Reads a command and its arguments, and tells whether arguments were left over. -/
def readCommand (arguments : List Text) : Except Stop (Command × Bool) :=
  match arguments with
  | [] => .error .misuse
  | name :: rest =>
    match commandGrammar? name with
    | none => .error .misuse
    | some grammar => do
      let taken ← grammar.take rest
      match commandOf? name taken with
      -- Arguments that are left over are turned down after the general ones were read.
      | some command => return (command, taken.leftOver)
      | none => .error .misuse

/-- Reads a command line.

The command is read before leftover arguments are refused, so that it can still give help. -/
def Arguments.read (arguments : List Text) : Except Stop Arguments := do
  let taken ← generalGrammar.take arguments
  let (command, leftOver) ← readCommand (taken.command.getD [])
  if taken.leftOver || leftOver then .error .misuse
  return {
    command
    config := (taken.text "config").map Text.plainPath
    locale := taken.text "locale"
    seed := taken.whole "seed"
    verbose := (taken.given.find? "verbose").isSome }

end DiceLab.CommandLine
