import DiceLab.CommandLine.Grammar
import DiceLab.Entries

/-! Taking marked arguments in order: switches with what follows them, and places between them. -/

namespace DiceLab.CommandLine

/-- What a switch or a place was given. -/
inductive Given where
  | present
  /-- The separator alone, which is dropped. -/
  | nothing
  | whole (value : Int)
  | text (value : Text)
  | texts (values : List Text)
deriving DecidableEq, Repr

/-- What was taken so far: the given values, the arguments of the command, and whether arguments
were left over. -/
structure Taken where
  given : Entries Given := []
  command : Option (List Text) := none
  leftOver : Bool := false

/-- Stores what a switch or a place was given; the last of several counts. -/
def Taken.give (taken : Taken) (name : Text) (given : Given) : Taken :=
  { taken with given := taken.given.store name given }

/-- The value of one argument. -/
def valueOf (kind : Kind) (argument : Text) : Except Stop Given :=
  match kind with
  | .text => .ok (.text argument)
  | .whole =>
    match Decimal.readNumeral argument with
    | .ok value => .ok (.whole value)
    | .error _ => .error .misuse
  | .help => .error .help

/-- The value of the arguments of a switch or a place that takes one; the separator beside it is
dropped, which leaves nothing when it was the one. -/
def valueOfAll (kind : Kind) (arguments : List Text) : Except Stop Given :=
  match arguments.erase separator with
  | [argument] => valueOf kind argument
  | _ => .ok .nothing

/-- The name under which the value of a switch is stored. -/
def Switch.key (switch : Switch) : Text :=
  (switch.names.getLastD []).dropWhile (· == .char '-')

/-- A switch with the arguments it takes. -/
structure Use where
  switch : Switch
  arguments : List Text

/-- Stores the use of a switch. -/
def Taken.use (taken : Taken) (use : Use) : Except Stop Taken :=
  match use.switch.kind, use.switch.takes with
  | .help, _ => .error .help
  | kind, .one => do return taken.give use.switch.key (← valueOfAll kind use.arguments)
  | _, .many => .ok (taken.give use.switch.key (.texts (use.arguments.erase separator)))
  | _, .nothing => .ok (taken.give use.switch.key .present)

/-- The switches in one argument: those that are settled, and the last one if it takes what
follows. -/
structure Cluster where
  settled : List Use := []
  pending : Option Switch := none

/-- Puts a switch that takes nothing in front of those behind it. -/
def Cluster.behind (switch : Switch) (cluster : Cluster) : Cluster :=
  { cluster with settled := ⟨switch, []⟩ :: cluster.settled }

/-- Whether a name is a short one. -/
def isShort (name : Text) : Bool := name.drop 1 |>.head?.all (· != .char '-')

/-- The switches that the text behind a name stands for: an argument, or more short names when the
switch before them takes nothing. -/
def Grammar.cluster (grammar : Grammar) (name : Text) (switch : Switch) :
    Text → Except Stop Cluster
  | [] =>
    match switch.takes with
    | .nothing => .error .misuse
    | _ => .ok { settled := [⟨switch, [[]]⟩] }
  | letter :: rest =>
    match switch.takes with
    | .nothing =>
      match grammar.find? [.char '-', letter] with
      | none => .error .misuse
      | some next =>
        -- Letters can only follow each other behind a short name.
        if !isShort name then .error .misuse
        else if rest.isEmpty then .ok { settled := [⟨switch, []⟩], pending := some next }
        else (grammar.cluster [.char '-', letter] next rest).map (.behind switch)
    | _ => .ok { settled := [⟨switch, [letter :: rest]⟩] }

/-- The switches of an argument. -/
def Grammar.clusterOf (grammar : Grammar) (written : Written) : Except Stop Cluster :=
  match written.attached with
  | none => .ok { pending := some written.switch }
  | some attached => grammar.cluster written.name written.switch attached

/-- Whether an argument is plain. -/
def isPlain (argument : Text × Mark) : Bool :=
  match argument.2 with
  | .plain => true
  | _ => false

/-- Whether an argument is a switch, known or not. -/
def isSwitch (argument : Text × Mark) : Bool :=
  match argument.2 with
  | .plain => false
  | .separator => false
  | _ => true

/-- The number of arguments that a switch takes of those that follow it. -/
def followersOf (switch : Switch) (behind : List (Text × Mark)) : Except Stop Nat :=
  let plain := (behind.takeWhile isPlain).length
  match switch.takes with
  | .nothing => .ok 0
  | .one => if plain = 0 then .error .misuse else .ok 1
  | .many => if plain = 0 then .error .misuse else .ok plain

/-- Takes a switch and what follows it; the number says how many arguments that was. -/
def Grammar.takeSwitch (grammar : Grammar) (taken : Taken) (written : Written)
    (behind : List (Text × Mark)) : Except Stop (Taken × Nat) := do
  let cluster ← grammar.clusterOf written
  let followers ← match cluster.pending with
    | none => pure 0
    | some switch => followersOf switch behind
  -- Only the last switch of a cluster looks for arguments behind it.
  let last := cluster.pending.toList.map fun switch =>
    (⟨switch, (behind.take followers).map Prod.fst⟩ : Use)
  let after ← (cluster.settled ++ last).foldlM Taken.use taken
  return (after, followers)

/-- Whether an argument is the separator that ends all switches. -/
def isSeparator (argument : Text × Mark) : Bool :=
  match argument.2 with
  | .separator => true
  | _ => false

/-- Splits off one plain argument with the separator on either side of it. -/
def takePlain (arguments : List (Text × Mark)) :
    Option (List Text × List (Text × Mark)) :=
  let before := arguments.takeWhile isSeparator
  match arguments.drop before.length with
  | argument :: behind =>
    if isPlain argument then
      -- Separators around an argument are taken along with it.
      let after := behind.takeWhile isSeparator
      some ((before ++ argument :: after).map Prod.fst, behind.drop after.length)
    else none
  | [] => none

/-- Stores what a place was given. -/
def Taken.fill (taken : Taken) (place : Place) (arguments : List Text) : Except Stop Taken := do
  return taken.give place.name (← valueOfAll place.kind arguments)

/-- What is left while arguments are taken. -/
structure Left where
  arguments : List (Text × Mark)
  places : List Place
  command : Bool

/-- Fills as many places as there are plain arguments, and then the command with all that remains.
-/
def fillPlaces (taken : Taken) (arguments : List (Text × Mark)) (command : Bool) :
    List Place → Except Stop (Taken × Left)
  | place :: places =>
    match takePlain arguments with
    | none => .ok (taken, ⟨arguments, place :: places, command⟩)
    | some (filled, behind) => do
      fillPlaces (← taken.fill place filled) behind command places
  | [] =>
    -- Where a command is due, it takes everything that is left.
    if command && (takePlain arguments).isSome then
      .ok ({ taken with command := some (arguments.map Prod.fst) }, ⟨[], [], false⟩)
    else .ok (taken, ⟨arguments, [], command⟩)

/-- Takes all arguments. Every step of the fuel takes at least one of them. -/
def Grammar.takeAll (grammar : Grammar) : Nat → Taken → Left → Except Stop (Taken × Left)
  | 0, taken, left => .ok (taken, left)
  | fuel + 1, taken, left =>
    match left.arguments with
    | [] => .ok (taken, left)
    | (argument, mark) :: behind =>
      match mark with
      | .unknown =>
        grammar.takeAll fuel { taken with leftOver := true } { left with arguments := behind }
      | .written written => do
        let (after, followers) ← grammar.takeSwitch taken written behind
        grammar.takeAll fuel after { left with arguments := behind.drop followers }
      | _ => do
        let (filled, next) ← fillPlaces taken ((argument, mark) :: behind) left.command left.places
        if next.arguments.length ≤ behind.length then grammar.takeAll fuel filled next
        else
          -- What no place takes is left over, up to the next switch.
          grammar.takeAll fuel { filled with leftOver := true }
            { next with arguments := next.arguments.dropWhile fun argument => !isSwitch argument }

/-- Takes a command line apart; every place must be filled, and a command must be there. -/
def Grammar.take (grammar : Grammar) (arguments : List Text) : Except Stop Taken := do
  let marked ← grammar.markAll arguments
  let (taken, left) ←
    grammar.takeAll marked.length {} ⟨marked, grammar.places, grammar.endsInCommand⟩
  if left.places.isEmpty && !left.command then return taken else .error .misuse

end DiceLab.CommandLine
