import DiceLab.CommandLine.Arguments
import DiceLab.Console

/-! The program behind its command line: settings are loaded, and one command is carried out. -/

namespace DiceLab.CommandLine

/-- The locale that a choice puts over that of a settings file. -/
def localeOverride : Choice Text → Value
  | .missing => .null
  | .nothing => .list []
  | .made locale => .text locale

/-- What the general switches say over a settings file. -/
def overrides (arguments : Arguments) : Entries Value := [
  ("locale", localeOverride arguments.locale),
  ("log_level", if arguments.verbose then .text LogLevel.debug.word else .null)]

/-- The settings of a command line; the file is the one it names. -/
def settings (arguments : Arguments) (file : Option Settings.File) : Reported Settings :=
  match arguments.config with
  | .nothing => Reported.fail .fileNotNamed
  | _ => Settings.load file (overrides arguments)

/-- Draws from the source that a seed stands for, when one is given. -/
def seeded {α : Type} (seed : Choice Int) (action : Session Dice α) : Session Dice α := do
  match seed with
  | .missing => action
  | .nothing => (Reported.fail .seedNotGiven : Reported α)
  | .made seed => do
    Session.set (Dice.ofSeed seed)
    action

/-- A number of the command line, or that of the settings in place of none or zero. -/
def orUsual (given : Option Int) (usual : Int) : Int := (given.filter (· != 0)).getD usual

/-- Reads and rolls a formula, and shows the outcome. -/
def roll (formula : Text) (wording : Wording) : Session Dice Unit := do
  let reading ← (Reading.ofText formula : Reported Reading)
  let outcome ← Formula.rollOnce reading.formula
  (Sheet.showOutcome outcome wording : Reported Unit)

/-- Shows the statistics of a formula. -/
def stats (formula : Text) (wording : Wording) : Reported Unit := do
  let reading ← Reading.ofText formula
  let normal ← reading.formula.text
  Sheet.showStats normal (← reading.formula.stats) wording Sheet.usualPadding

/-- Shows the distribution of a formula over the given number of runs, or over that of the settings;
each value is drawn from a state. -/
@[specialize] def simulateFrom {σ : Type} (draw : Face → σ → Int × σ) (formula : Text)
    (runs : Option Int) (settings : Settings) (wording : Wording) : Session σ Unit := do
  let _ ← Sheet.showDistributionFrom draw (.value (.text formula))
    (.whole (orUsual runs settings.simulationCount)) wording

/-- Shows the candidates for a target, at most as many as given, or as the settings say. -/
def generate (target : Target) (faces : List Text) (limit : Option Int) (settings : Settings)
    (wording : Wording) : Reported Unit := do
  let found ← Console.candidates settings target faces (orUsual limit settings.maxCandidates)
  Sheet.showCandidates found wording

/-- Carries out a command; the lines are those the user types. -/
def perform (command : Command) (settings : Settings) (catalog : Catalog)
    (lines : List (Option Text)) : Session Dice Unit := do
  let wording : Wording := ⟨catalog, some settings.locale⟩
  match command with
  | .stats formula => (stats formula wording : Reported Unit)
  | .roll formula => roll formula wording
  | .simulate formula runs => simulateFrom Dice.draw formula runs settings wording
  -- An end that was not given as one number cannot be compared with the other one.
  | .generate _ none _ _ => (Reported.fail .endNotGiven : Reported Unit)
  | .generate min (some max) faces limit =>
    (generate ⟨min, max⟩ faces limit settings wording : Reported Unit)
  | .interactive =>
    let console : Console := ⟨settings, catalog⟩
    fun dice =>
      let (report, state) := console.run lines (console.start dice)
      (report, state.dice)

/-- Runs a command line, and gives the settings it ran with. -/
def run (arguments : Arguments) (file : Option Settings.File) (catalog : Catalog)
    (lines : List (Option Text)) : Session Dice Settings := do
  let settings ← (settings arguments file : Reported Settings)
  (Reported.log .info ("Running '" ++ arguments.command.name ++ "'")
    [("locale", .text settings.locale)] : Reported Unit)
  seeded arguments.seed (perform arguments.command settings catalog lines)
  return settings

end DiceLab.CommandLine
