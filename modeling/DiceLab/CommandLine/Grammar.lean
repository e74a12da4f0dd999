import DiceLab.Decimal.Digits

/-! Command lines as switches and places: every argument is first classified, then taken in order.
-/

namespace DiceLab.CommandLine

/-- Why reading a command line stops early. -/
inductive Stop where
  | help
  | misuse
deriving DecidableEq, Repr

/-- The exit code of a program that stops. -/
def Stop.code : Stop → Nat
  | .help => 0
  | .misuse => 2

/-- What a switch takes behind it. -/
inductive Takes where
  | nothing
  | one
  | many
deriving DecidableEq, Repr

/-- What the arguments of a switch or a place stand for. -/
inductive Kind where
  | text
  | whole
  /-- Asks for help instead. -/
  | help
deriving DecidableEq, Repr

/-- A switch: its names, and what it takes; its last name without dashes is that of its value. -/
structure Switch where
  names : List Text
  takes : Takes
  kind : Kind
deriving DecidableEq, Repr

/-- A place for one argument that no switch takes. -/
structure Place where
  name : Text
  kind : Kind
deriving DecidableEq, Repr

/-- What may stand on a command line; behind its places it may end in a command, which takes all
arguments from its name on. -/
structure Grammar where
  switches : List Switch
  places : List Place
  endsInCommand : Bool
deriving DecidableEq, Repr

/-- The names of all switches, each with its switch. -/
def Grammar.names (grammar : Grammar) : List (Text × Switch) :=
  grammar.switches.flatMap fun switch => switch.names.map fun name => (name, switch)

/-- The switch with a name. -/
def Grammar.find? (grammar : Grammar) (name : Text) : Option Switch :=
  (grammar.names.find? fun entry => entry.1 == name).map Prod.snd

/-- A switch as it was written: its name, and the text behind it in the same argument. -/
structure Written where
  name : Text
  switch : Switch
  attached : Option Text

/-- What an argument is before it is taken. -/
inductive Mark where
  | plain
  /-- Two dashes alone, behind which everything is plain. -/
  | separator
  | unknown
  | written (written : Written)

/-- The sign between a name and what is attached to it. -/
def equalsSign : CodePoint := '='

/-- Splits a text at its first equals sign. -/
def splitEquals (text : Text) : Text × Option Text :=
  match text.dropWhile (· != equalsSign) with
  | [] => (text, none)
  | _ :: behind => (text.takeWhile (· != equalsSign), some behind)

/-- Whether a text is that of a negative number; one line end may stand behind it. -/
def isNegativeNumber (text : Text) : Bool :=
  -- One line break at the end is overlooked.
  let bare := if text.getLast? = some (.char '\n') then text.dropLast else text
  match bare with
  | .char '-' :: body =>
    let whole := body.takeWhile Decimal.isDigit
    match body.drop whole.length with
    | [] => !whole.isEmpty
    | .char '.' :: fraction => !fraction.isEmpty && fraction.all Decimal.isDigit
    | _ => false
  | _ => false

/-- Every reading of an argument as a shortened long name, or as a short name with text behind it.
-/
def Grammar.abbreviated (grammar : Grammar) (text : Text) : List Written :=
  match text with
  | .char '-' :: .char '-' :: _ =>
    -- The beginning of a long name stands for it.
    let (name, attached) := splitEquals text
    grammar.names.filterMap fun (full, switch) =>
      if name.isPrefixOf full then some ⟨full, switch, attached⟩ else none
  | _ =>
    grammar.names.filterMap fun (full, switch) =>
      -- A short name takes what stands right behind it.
      if full == text.take 2 then some ⟨text.take 2, switch, some (text.drop 2)⟩ else none

/-- The mark of an argument that starts with a dash and more. -/
def Grammar.markDashed (grammar : Grammar) (text : Text) : Except Stop Mark :=
  match grammar.find? text with
  | some switch => .ok (.written ⟨text, switch, none⟩)
  | none =>
    let (name, attached) := splitEquals text
    match grammar.find? name, attached with
    | some switch, some attached => .ok (.written ⟨name, switch, some attached⟩)
    | _, _ =>
      match grammar.abbreviated text with
      | [written] => .ok (.written written)
      | _ :: _ :: _ => .error .misuse
      -- What looks like a negative number, or has a space in it, is no switch.
      | [] => .ok (if isNegativeNumber text || text.contains (.char ' ') then .plain else .unknown)

/-- The mark of an argument. -/
def Grammar.mark (grammar : Grammar) (argument : Text) : Except Stop Mark :=
  match argument with
  | .char '-' :: _ :: _ => grammar.markDashed argument
  | _ => .ok .plain

/-- The separator. -/
def separator : Text := "--"

/-- The marks of all arguments. -/
def Grammar.markAll (grammar : Grammar) : List Text → Except Stop (List (Text × Mark))
  | [] => .ok []
  | argument :: rest =>
    if argument == separator then
      -- Behind the first separator nothing is a switch any more.
      .ok ((argument, .separator) :: rest.map fun behind => (behind, .plain))
    else do
      let mark ← grammar.mark argument
      return (argument, mark) :: (← grammar.markAll rest)

end DiceLab.CommandLine
