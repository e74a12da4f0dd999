import DiceLab.CommandLine

/-! The program: files, lines and output around its command line. -/

namespace DiceLab.Program

/-- The mark in place of a surrogate, which cannot be written. -/
def replacement : Char := '\ufffd'

/-- The writable form of a text. -/
def written (text : Text) : String :=
  String.ofList (text.map fun
    | .char value => value
    | .surrogate _ => replacement)

/-- The bytes of a file, or why it cannot be opened. -/
def readBytes (name : Text) : IO (Except Settings.Unopened ByteArray) := do
  try
    return .ok (← IO.FS.readBinFile (written name))
  catch
    | .inappropriateType .. => return .error .folder
    | _ => return .error .missing

/-- An item as lines of marked-up text; the cells of a table are divided by tabs. -/
def linesOf : Sheet.Item → List Text
  | .text markup => [markup]
  | .padded markup padding => [List.replicate padding.toNat (.char ' ') ++ markup]
  | .rule title _ => ["--- " ++ title ++ " ---"]
  | .table content =>
    content.title.toList ++ [Text.join "\t" (content.columns.map Sheet.Column.header)] ++
      content.rows.map fun row => Text.join "\t" row

/-- Shows what was noticed: items as output, warnings and log records apart from them. -/
def tell (level : Nat) (notices : List Notice) : IO Unit := do
  for notice in notices do
    match notice with
    | .print item =>
      for line in linesOf item do
        IO.println (written line)
    | .warning text => IO.eprintln (written text)
    | .log record =>
      if level ≤ record.severity.rank then
        IO.eprintln (written
          (record.severity.name ++ " " ++ record.logger ++ ": " ++ record.message))

/-- Tells why the program failed. -/
def tellFailure (failure : Failure) : IO Unit :=
  IO.eprintln (written (failure.message?.getD "invalid input"))

/-- Handles the lines of the user until one asks to quit or there are no more. -/
partial def converse (console : Console) (level : Nat) (state : Console.State) : IO UInt32 := do
  IO.print "\nMacro > "
  (← IO.getStdout).flush
  let line ← (← IO.getStdin).getLine
  if line.isEmpty then return 0
  let (report, after) := console.handle line state
  tell level report.notices
  match report.result with
  | .ok true => converse console level after
  | .ok false => return 0
  | .error failure =>
    tellFailure failure
    return 1

/-- Carries out a command line. -/
def carryOut (arguments : CommandLine.Arguments) : IO UInt32 := do
  let file ← arguments.config.value?.mapM fun name => do
    return (⟨name, ← readBytes name⟩ : Settings.File)
  let dice ← match arguments.seed with
    | .made seed => pure (Dice.ofSeed seed)
    | _ => do pure (Dice.ofSeed (← IO.monoNanosNow))
  let (report, _) := CommandLine.run arguments file Catalog.packaged [] dice
  match report.result with
  | .error failure =>
    tell 0 report.notices
    tellFailure failure
    return 1
  | .ok settings =>
    tell settings.logLevel.rank report.notices
    if arguments.command = .interactive then
      let console : Console := ⟨settings, Catalog.packaged⟩
      converse console settings.logLevel.rank (console.start dice)
    else return 0

/-- How the program is called. -/
def usage : String :=
  "usage: rollforge [--config FILE] [--locale LOCALE] [--seed SEED] [-v] " ++
    "(stats MACRO | roll MACRO | simulate MACRO [-n RUNS] | " ++
    "generate MIN MAX [-f FACE ...] [-k COUNT] | interactive)"

end DiceLab.Program

/-- Reads the command line and carries it out; otherwise shows how the program is called. -/
def main (arguments : List String) : IO UInt32 := do
  match DiceLab.CommandLine.Arguments.read (arguments.map .ofString) with
  | .ok arguments => DiceLab.Program.carryOut arguments
  | .error stop =>
    IO.eprintln DiceLab.Program.usage
    return stop.code.toUInt32
