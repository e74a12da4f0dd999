import DiceLab.Distribution
import DiceLab.Candidate
import DiceLab.Schema.Field
import DiceLab.Text.Path
import DiceLab.Value.Json

/-! Settings of the engine, read from a file and overridden by the caller. -/

namespace DiceLab

/-- The name of a level of log records. -/
inductive LogLevel where
  | critical
  | fatal
  | error
  | warning
  | warn
  | info
  | debug
  | notSet
deriving DecidableEq, Repr

namespace LogLevel

/-- Every level name. -/
def all : List LogLevel := [critical, fatal, error, warning, warn, info, debug, notSet]

/-- The word for a level. -/
def word : LogLevel → String
  | .critical => "CRITICAL"
  | .fatal => "FATAL"
  | .error => "ERROR"
  | .warning => "WARNING"
  | .warn => "WARN"
  | .info => "INFO"
  | .debug => "DEBUG"
  | .notSet => "NOTSET"

/-- The rank of a level: records below it are dropped. -/
def rank : LogLevel → Nat
  | .critical => 50
  | .fatal => 50
  | .error => 40
  | .warning => 30
  | .warn => 30
  | .info => 20
  | .debug => 10
  | .notSet => 0

/-- The capital of a letter, if it is an ASCII one.

Two letters outside ASCII have such capitals: the dotless i and the long s. -/
def capital (char : Char) : Char :=
  if char = 'ı' then 'I' else if char = 'ſ' then 'S' else char.toUpper

/-- The level with a given word, in letters of either case. -/
def ofWord? (text : Text) : Option LogLevel :=
  all.find? fun level => Text.ofString level.word == text.map (.map capital)

end LogLevel

/-- What the command line and the console use unless they are told otherwise. -/
structure Settings where
  simulationCount : Int := 10000
  maxCandidates : Int := Candidate.defaultLimit
  availableFaces : List Text := ["d4", "d6", "d8", "d10", "d12", "d20"]
  locale : Text := "en"
  logLevel : LogLevel := .info
deriving DecidableEq, Repr

namespace Settings

/-- A number of rolls for a histogram. -/
def simulationCountField (value : Value) : Checked Int :=
  (Schema.whole value).andThen
    (Schema.passing fun count =>
      Schema.between (.whole 1) (some (.whole mostTrials)) (.whole count))

/-- A number of candidates: at least one. -/
def maxCandidatesField (value : Value) : Checked Int :=
  (Schema.whole value).andThen
    (Schema.passing fun count => Schema.between (.whole 1) none (.whole count))

/-- A level of log records. -/
def logLevelField (value : Value) : Checked LogLevel :=
  (Schema.text value).andThen fun word =>
    match LogLevel.ofWord? word with
    | some level => .ok level
    | none => Checked.fault (if word.isBroken then .unwritable else .inconsistent)

/-- Settings made of plain fields; a missing one has its default. -/
def ofFields (fields : Entries Value) : Checked Settings :=
  let usual : Settings := {}
  Settings.mk <$>
    Schema.optional "simulation_count" usual.simulationCount simulationCountField fields <*>
    Schema.optional "max_candidates" usual.maxCandidates maxCandidatesField fields <*>
    Schema.optional "available_faces" usual.availableFaces (Schema.list Schema.text) fields <*>
    Schema.optional "locale" usual.locale Schema.text fields <*>
    Schema.optional "log_level" usual.logLevel logLevelField fields

/-- Why a file cannot be opened. -/
inductive Unopened where
  | missing
  | folder
deriving DecidableEq, Repr

/-- What the system says about a file that cannot be opened. -/
def Unopened.message : Unopened → String
  | .missing => "[Errno 2] No such file or directory"
  | .folder => "[Errno 21] Is a directory"

/-- A settings file as it is named in messages, with its content. -/
structure File where
  name : Text
  content : Except Unopened ByteArray

/-- What is wrong with the name of a file, when no file can have it. -/
def File.nameFailure? (file : File) : Option Failure :=
  if !file.name.hasBytes then some .unencodable
  else if file.name.contains (.char '\x00') then some .fileNameCut
  else none

/-- The fields of a file, with a warning when there are none to be had.

A name that no file can have, bytes that are not text, numbers that are too long, and values too
deep inside one another end the loading. -/
def fileFields (file : File) : Reported (Entries Value) := do
  let unreadable (reason : Text) : Reported (Entries Value) := do
    Reported.warn ("Could not read settings file '" ++ file.name ++ "'" ++ reason)
    return []
  if let some failure := file.nameFailure? then Reported.fail failure
  match file.content with
  | .error cause =>
    unreadable (": " ++ cause.message ++ ": " ++ file.name.quoted ++ ", using defaults")
  | .ok bytes =>
    match String.fromUTF8? bytes with
    | none => Reported.fail .undecodable
    | some text =>
      match Json.parse .ofFiles text with
      | .ok (.table fields) => return fields
      | .ok _ =>
        Reported.warn
          ("Settings file '" ++ file.name ++ "' does not contain an object, using defaults")
        return []
      | .error .malformed => unreadable ""
      | .error (.tooManyDigits count) => Reported.fail (.tooManyDigits count)
      | .error .tooDeep => Reported.fail .tooDeep

/-- Whether an override says nothing. -/
def isNull : Value → Bool
  | .null => true
  | _ => false

/-- The name that stands for the file among what settings are loaded from. -/
def fileArgument : String := "path"

/-- The settings of a file under overrides that are not null; settings that do not pass the check
are all replaced by their defaults. -/
def load (file : Option File) (overrides : Entries Value) : Reported Settings := do
  if (overrides.find? fileArgument).isSome then
    Reported.fail (.nameTaken "load_settings" fileArgument)
  let fields ← match file with
    | none => pure []
    | some file => fileFields file
  let given := overrides.filter fun entry => !isNull entry.2
  match (ofFields (Entries.storeAll given fields)).result with
  | .ok settings => return settings
  | .error (.invalid _) =>
    Reported.warn "Invalid settings, using defaults"
    return {}
  | .error failure => Reported.fail failure

end Settings

end DiceLab
