import DiceLab.Generator
import DiceLab.Settings
import DiceLab.Sheet.Candidates
import DiceLab.Sheet.Distribution

/-! The console: each line is a command or a formula to look at, and the session goes on until it is
told to quit. -/

namespace DiceLab

/-- What a console session was started with. -/
structure Console where
  settings : Settings
  catalog : Catalog

namespace Console

/-- What a session changes: the locale and the source of draws. -/
structure State where
  locale : Text
  dice : Dice

/-- A computation in a session. -/
abbrev Action (α : Type) := Session State α

/-- The state at the start of a session. -/
def start (console : Console) (dice : Dice) : State := ⟨console.settings.locale, dice⟩

/-- Uses the source of draws. -/
def withDice {α : Type} (action : Session Dice α) : Action α :=
  Session.on State.dice (fun dice state => { state with dice }) action

/-- The wording of the session's locale. -/
def wording (console : Console) : Action Wording := do
  return ⟨console.catalog, some (← Session.get).locale⟩

/-- Shows a line. -/
def say (markup : Text) : Reported Unit := Reported.print (.text markup)

/-- The commands that are told to the user. -/
def commands : List Text := [":gen", ":roll", ":lang", "q"]

/-- Shows how the search is asked. -/
def showSearchUsage : Reported Unit := say (Sheet.styled "red" "Usage: :gen MIN MAX [FACE ...]")

/-- Whether a word may be an end of a target: digits behind any number of minus signs. -/
def isEnd (word : Text) : Bool :=
  let digits := word.dropWhile (· == .char '-')
  !digits.isEmpty && digits.all (CodePoint.has Text.isDigitLike)

/-- The candidates for a target with the named faces, or with those of the settings. -/
def candidates (settings : Settings) (target : Target) (faces : List Text) (limit : Int) :
    Reported (List Candidate) :=
  let names := if faces.isEmpty then settings.availableFaces else faces
  Generator.search target (names.map fun name => .value (.text name)) (.whole limit)

/-- Searches formulas for the target that words give, with the faces behind it. -/
def forge (console : Console) (words : List Text) : Action Unit := do
  match words with
  | low :: high :: faces =>
    if isEnd low && isEnd high then
      let low ← (Decimal.parse low : Except Failure Int)
      let high ← (Decimal.parse high : Except Failure Int)
      let found ← (candidates console.settings ⟨low, high⟩ faces console.settings.maxCandidates :
        Reported (List Candidate))
      (Sheet.showCandidates found (← console.wording) : Reported Unit)
    else (showSearchUsage : Reported Unit)
  | _ => (showSearchUsage : Reported Unit)

/-- Rolls a text once and shows the outcome. -/
def roll (console : Console) (text : Text) : Action Unit := do
  let reading ← (Reading.ofText text : Reported Reading)
  let outcome ← withDice (Formula.rollOnce reading.formula)
  (Sheet.showOutcome outcome (← console.wording) : Reported Unit)

/-- Changes the locale to a known one. -/
def switchLocale (console : Console) (locale : Text) : Action Unit := do
  let known := console.catalog.locales
  if known.contains locale then
    let state ← Session.get
    Session.set { state with locale }
    (say ("Locale set to " ++ Sheet.styled "bold" locale) : Reported Unit)
  else
    (say (Sheet.styled "red" ("Unknown locale '" ++ locale ++ "'") ++ ". Available: " ++
      Text.join ", " known) : Reported Unit)

/-- Shows what is known about a formula: its statistics, one roll, and its distribution. -/
def analyze (console : Console) (text : Text) : Action Unit := do
  let reading ← (Reading.ofText text : Reported Reading)
  let normal ← (reading.formula.text : Except Failure Text)
  if !reading.isComplete then
    (say (Sheet.styled "yellow" ("Ignored: " ++ Text.join ", " reading.ignored)) : Reported Unit)
  let wording ← console.wording
  let stats ← (reading.formula.stats : Except Failure Stats)
  (Sheet.showStats normal stats wording Sheet.usualPadding : Reported Unit)
  let outcome ← withDice (Formula.rollOnce reading.formula)
  (Sheet.showOutcome outcome wording : Reported Unit)
  let _ ← withDice
    (Sheet.showDistribution (.reading reading) (.whole console.settings.simulationCount) wording)

/-- Whether a line asks to quit. -/
def isQuit (line : Text) : Bool := line == [.char 'q'] || line == [.char 'Q']

/-- Follows a line that is neither blank nor asks to quit. -/
def follow (console : Console) (line : Text) : Action Unit := do
  let (command, rest) := Text.cutAtSpace line
  match command.string? with
  | some ":gen" => console.forge rest.words
  | some ":roll" => console.roll rest
  | some ":lang" => console.switchLocale rest.strip
  | _ =>
    if command.head? == some (.char ':') then
      (say (Sheet.styled "red" ("Unknown command " ++ command) ++ ". Try one of: " ++
        Text.join ", " commands) : Reported Unit)
    else console.analyze line

/-- Handles a line, and tells whether the session goes on. -/
def handle (console : Console) (line : Text) : Action Bool := do
  let stripped := line.strip
  if stripped.isEmpty then return true
  if isQuit stripped then return false
  console.follow stripped
  return true

/-- The line across the display at the start of a session. -/
def banner : Sheet.Item := .rule "RollForge" "bold green"

/-- Handles lines until one asks to quit or is not there because the user broke off. -/
def handleAll (console : Console) : List (Option Text) → Action Unit
  | some line :: rest => do
    if ← console.handle line then console.handleAll rest
  | _ => return ()

/-- Runs a session on the lines the user types. -/
def run (console : Console) (lines : List (Option Text)) : Action Unit := do
  (Reported.print banner : Reported Unit)
  console.handleAll lines

end Console

end DiceLab
