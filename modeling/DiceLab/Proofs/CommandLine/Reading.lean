import DiceLab.CommandLine.Arguments
import DiceLab.Proofs.Decimal.Numeral

/-! A number behind its switch on a command line is read as that number, below zero as well. -/

namespace DiceLab.CommandLine

open Decimal (Digits Numeral)

/-- An argument that does not start with a dash. -/
def Undashed (argument : Text) : Prop := argument.head? ≠ some (.char '-')

instance (argument : Text) : Decidable (Undashed argument) := inferInstanceAs (Decidable (_ ≠ _))

/-- No switch of a grammar has a digit behind its first dash. -/
def Grammar.Lettered (grammar : Grammar) : Prop :=
  ∀ entry ∈ grammar.names, ∀ point, (entry.1.drop 1).head? = some point →
    Decimal.isDigit point = false

instance (grammar : Grammar) : Decidable grammar.Lettered :=
  decidable_of_iff (∀ entry ∈ grammar.names, ∀ point ∈ (entry.1.drop 1).head?,
    Decimal.isDigit point = false) Iff.rfl

variable {grammar : Grammar} {argument : Text}

/-- An argument that does not start with a dash is plain. -/
theorem Undashed.mark (undashed : Undashed argument) : grammar.mark argument = .ok .plain := by
  unfold Grammar.mark
  split
  · exact absurd rfl undashed
  · rfl

/-- Digits have no equals sign and no line end among them. -/
theorem plain_of_digits {run : Text} (digits : Digits run) :
    (∀ point ∈ run, (point != equalsSign) = true) ∧ run.getLast? ≠ some (.char '\n') := by
  constructor
  · intro point member
    rw [bne_iff_ne]
    rintro rfl
    exact absurd (digits _ member) (by decide +kernel)
  · intro last
    exact absurd (digits _ (List.mem_of_getLast? last)) (by decide +kernel)

/-- A minus sign in front of digits is that of a negative number. -/
theorem isNegativeNumber_of_digits {run : Text} (some : run ≠ []) (digits : Digits run) :
    isNegativeNumber (.char '-' :: run) = true := by
  obtain ⟨digit, rest, rfl⟩ := List.exists_cons_of_ne_nil some
  -- The last character is a digit, because the run is not empty.
  have last : (CodePoint.char '-' :: digit :: rest).getLast? ≠ Option.some (.char '\n') := by
    rw [List.getLast?_cons_cons]
    exact (plain_of_digits digits).2
  have whole : (digit :: rest).takeWhile Decimal.isDigit = digit :: rest :=
    List.takeWhile_eq_self_iff.mpr digits
  rw [isNegativeNumber, if_neg last]
  simp only [whole, List.drop_length, List.isEmpty_cons, Bool.not_false]

/-- A negative number is plain where no switch is one. -/
theorem mark_of_negative {run : Text} (lettered : grammar.Lettered) (some : run ≠ [])
    (digits : Digits run) : grammar.mark (.char '-' :: run) = .ok .plain := by
  have negative := isNegativeNumber_of_digits some digits
  obtain ⟨digit, rest, rfl⟩ := List.exists_cons_of_ne_nil some
  have known : Decimal.isDigit digit = true := digits digit List.mem_cons_self
  -- Every name that the argument could stand for has something else in place of its first digit.
  have foreign : ∀ entry ∈ grammar.names, ∀ behind : Text,
      entry.1 ≠ .char '-' :: digit :: behind := by
    intro entry member behind same
    have other := lettered entry member digit (by rw [same]; rfl)
    rw [known] at other
    cases other
  have unnamed : grammar.find? (.char '-' :: digit :: rest) = none := by
    rw [Grammar.find?, Option.map_eq_none_iff, List.find?_eq_none]
    intro entry member same
    exact foreign entry member rest (beq_iff_eq.mp same)
  have unsplit : splitEquals (.char '-' :: digit :: rest) = (.char '-' :: digit :: rest, none) := by
    have none : (CodePoint.char '-' :: digit :: rest).dropWhile (· != equalsSign) = [] := by
      apply List.dropWhile_eq_nil_iff.mpr
      rw [List.forall_mem_cons]
      exact ⟨by decide, (plain_of_digits digits).1⟩
    rw [splitEquals, none]
  have shortened : grammar.abbreviated (.char '-' :: digit :: rest) = [] := by
    have single : digit ≠ .char '-' := (Decimal.plain_of_isDigit known).2.1
    unfold Grammar.abbreviated
    split
    · rename_i same
      exact absurd (List.cons.inj (List.cons.inj same).2).1 single
    · apply List.filterMap_eq_nil_iff.mpr
      intro entry member
      simpa using foreign entry member []
  show grammar.markDashed (.char '-' :: digit :: rest) = _
  rw [Grammar.markDashed, unnamed]
  simp only [unsplit, unnamed, shortened, negative, Bool.true_or, if_true]

/-- A number is plain where no switch is one. -/
theorem mark_of_numeral {value : Int} (lettered : grammar.Lettered)
    (numeral : Numeral argument value) : grammar.mark argument = .ok .plain := by
  cases numeral with
  -- Without a sign the argument does not begin with a dash.
  | positive some digits short =>
    have undashed : Undashed argument := fun first =>
      absurd (digits _ (List.mem_of_head? first)) (by decide)
    exact undashed.mark
  | negative some digits short => exact mark_of_negative lettered some digits

/-- An argument that is taken as it is where no switch is one. -/
structure Plain (grammar : Grammar) (argument : Text) : Prop where
  apart : argument ≠ separator
  mark : grammar.mark argument = .ok .plain

/-- An argument without a dash is taken as it is. -/
theorem Undashed.plain (undashed : Undashed argument) : Plain grammar argument :=
  ⟨fun same => undashed (same ▸ rfl), undashed.mark⟩

/-- A number is taken as it is where no switch is one. -/
theorem plain_of_numeral {value : Int} (lettered : grammar.Lettered)
    (numeral : Numeral argument value) : Plain grammar argument :=
  ⟨fun same => Decimal.not_numeral_doubled [] value
      (show Numeral separator value from same ▸ numeral),
    mark_of_numeral lettered numeral⟩

variable {rest : List Text} {marked : List (Text × Mark)}

/-- An argument is marked in front of the others. -/
theorem markAll_cons {mark : Mark} (apart : argument ≠ separator)
    (known : grammar.mark argument = .ok mark) (behind : grammar.markAll rest = .ok marked) :
    grammar.markAll (argument :: rest) = .ok ((argument, mark) :: marked) := by
  have other : ¬(argument == separator) = true := fun same => apart (beq_iff_eq.mp same)
  rw [Grammar.markAll, if_neg other, known, behind]
  rfl

/-- A plain argument is marked as such in front of the others. -/
theorem Plain.markAll (plain : Plain grammar argument)
    (behind : grammar.markAll rest = .ok marked) :
    grammar.markAll (argument :: rest) = .ok ((argument, .plain) :: marked) :=
  markAll_cons plain.apart plain.mark behind

/-- Plain arguments are marked as such in front of the others. -/
theorem markAll_append {arguments : List Text}
    (plain : ∀ argument ∈ arguments, Plain grammar argument)
    (behind : grammar.markAll rest = .ok marked) :
    grammar.markAll (arguments ++ rest) = .ok (arguments.map (·, Mark.plain) ++ marked) := by
  -- Each argument is marked on its own, whatever stands behind it.
  induction arguments with
  | nil => exact behind
  | cons argument arguments ih =>
    rw [List.forall_mem_cons] at plain
    exact plain.1.markAll (ih plain.2)

/-- The value of a number is that number. -/
theorem valueOf_numeral {value : Int} (numeral : Numeral argument value) :
    valueOf .whole argument = .ok (.whole value) := by
  have known := Console.isEnd_of_numeral numeral
  have read := Decimal.parse_eq_ok.mp ((Console.parse_of_isEnd known).mpr numeral)
  rw [valueOf, read]

/-- The one plain argument of a place or a switch is its value. -/
theorem valueOfAll_single (kind : Kind) (apart : argument ≠ separator) :
    valueOfAll kind [argument] = valueOf kind argument := by
  have kept : [argument].erase separator = [argument] :=
    List.erase_of_not_mem (by simpa using apart.symm)
  rw [valueOfAll, kept]

section

variable {taken after : Taken} {places : List Place} {behind : List (Text × Mark)} {command : Bool}

/-- When no arguments are left, nothing more is taken. -/
theorem takeAll_nil (fuel : Nat) : grammar.takeAll fuel taken ⟨[], places, command⟩ =
    .ok (taken, ⟨[], places, command⟩) := by
  cases fuel with
  | zero => rfl
  | succ fuel => rfl

/-- A plain argument is split off alone when no separator stands behind it. -/
theorem takePlain_cons (apart : ∀ first ∈ behind.head?, isSeparator first = false) :
    takePlain ((argument, .plain) :: behind) = some ([argument], behind) := by
  -- A separator would be taken along with the argument.
  have none : behind.takeWhile isSeparator = [] := by
    cases behind with
    | nil => rfl
    | cons first rest => exact List.takeWhile_cons_of_neg (by simp [apart first rfl])
  simp [takePlain, isSeparator, isPlain, none]

/-- A place is filled with the plain argument in front. -/
theorem fillPlaces_cons {place : Place} {value : Given} (plain : argument ≠ separator)
    (apart : ∀ first ∈ behind.head?, isSeparator first = false)
    (known : valueOf place.kind argument = .ok value) :
    fillPlaces taken ((argument, .plain) :: behind) command (place :: places) =
      fillPlaces (taken.give place.name value) behind command places := by
  simp only [fillPlaces, takePlain_cons apart, Taken.fill, valueOfAll_single _ plain, known,
    Bind.bind, Except.bind, pure, Except.pure]

/-- The arguments in front are taken as far as there are places for them. -/
theorem takeAll_places {next : Left} (fuel : Nat)
    (filled : fillPlaces taken ((argument, .plain) :: behind) command places = .ok (after, next))
    (shorter : next.arguments.length ≤ behind.length) :
    grammar.takeAll (fuel + 1) taken ⟨(argument, .plain) :: behind, places, command⟩ =
      grammar.takeAll fuel after next := by
  simp only [Grammar.takeAll, filled, Bind.bind, Except.bind, shorter, if_true]

/-- Arguments that are marked as plain are the arguments. -/
theorem map_fst_plain (arguments : List Text) :
    (arguments.map (·, Mark.plain)).map Prod.fst = arguments := by
  rw [List.map_map]
  exact List.map_id' _

/-- A switch is taken with the plain arguments that follow it. -/
theorem takeAll_switch {name : Text} {switch : Switch} (arguments : List Text)
    (behind : List (Text × Mark)) (fuel : Nat)
    (follow : followersOf switch (arguments.map (·, Mark.plain) ++ behind) = .ok arguments.length)
    (used : taken.use ⟨switch, arguments⟩ = .ok after) :
    grammar.takeAll (fuel + 1) taken
        ⟨(name, .written ⟨name, switch, none⟩) :: (arguments.map (·, Mark.plain) ++ behind), places,
          command⟩ =
      grammar.takeAll fuel after ⟨behind, places, command⟩ := by
  -- The switch takes exactly the arguments that stand between it and what is behind them.
  have kept : (arguments.map (·, Mark.plain) ++ behind).take arguments.length =
      arguments.map (·, Mark.plain) := List.take_left' (List.length_map _)
  have left : (arguments.map (·, Mark.plain) ++ behind).drop arguments.length = behind :=
    List.drop_left' (List.length_map _)
  have taking : grammar.takeSwitch taken ⟨name, switch, none⟩
      (arguments.map (·, Mark.plain) ++ behind) = .ok (after, arguments.length) := by
    simp only [Grammar.takeSwitch, Grammar.clusterOf, Bind.bind, Except.bind, follow, kept,
      map_fst_plain, Option.toList, List.map_cons, List.map_nil, List.nil_append, List.foldlM_cons,
      used, List.foldlM_nil]
    rfl
  simp only [Grammar.takeAll, taking, Bind.bind, Except.bind, left]

/-- A command line is taken when nothing is left of it and every place is filled. -/
theorem take_eq_ok (known : grammar.markAll rest = .ok marked)
    (all : grammar.takeAll marked.length {} ⟨marked, grammar.places, grammar.endsInCommand⟩ =
      .ok (taken, ⟨[], [], false⟩)) : grammar.take rest = .ok taken := by
  simp only [Grammar.take, known, Bind.bind, Except.bind, all]
  rfl

end

/-- A command and its arguments are taken as a whole from the first argument on. -/
theorem take_command {name : Text} (named : Undashed name)
    (behind : generalGrammar.markAll rest = .ok marked) (same : marked.map Prod.fst = rest) :
    generalGrammar.take (name :: rest) = .ok { command := some (name :: rest) } := by
  have all : generalGrammar.markAll (name :: rest) = .ok ((name, .plain) :: marked) :=
    named.plain.markAll behind
  -- The place for the command takes all that is left.
  have filled : fillPlaces {} ((name, .plain) :: marked) true [] =
      .ok ({ command := some (name :: rest) }, ⟨[], [], false⟩) := by
    rw [← same]
    rfl
  exact take_eq_ok all ((takeAll_places marked.length filled (Nat.zero_le _)).trans (takeAll_nil _))

/-- A command line without general switches is that of its command. -/
theorem read_of_command {name : Text} {command : Command} (named : Undashed name)
    (behind : generalGrammar.markAll rest = .ok marked) (same : marked.map Prod.fst = rest)
    (known : readCommand (name :: rest) = .ok (command, false)) :
    Arguments.read (name :: rest) = .ok ⟨.missing, .missing, .missing, false, command⟩ := by
  simp only [Arguments.read, take_command named behind same, Bind.bind, Except.bind,
    Option.getD_some, known]
  rfl

/-- General switches start with letters. -/
theorem lettered_general : generalGrammar.Lettered := by decide +kernel

/-- The switch for the number of runs. -/
def runsSwitch : Switch := ⟨["-n", "--runs"], .one, .whole⟩

/-- The arguments of the command that shows distributions. -/
def simulateGrammar : Grammar := ⟨[helpSwitch, runsSwitch], [formulaPlace], false⟩

/-- The number behind the switch for runs is that of the command. -/
theorem read_simulate {formula number : Text} {runs : Int} (undashed : Undashed formula)
    (numeral : Numeral number runs) :
    Arguments.read ["simulate", formula, "-n", number] =
      .ok ⟨.missing, .missing, .missing, false, .simulate formula (some runs)⟩ := by
  have lettered : simulateGrammar.Lettered := by decide +kernel
  have counted := valueOf_numeral numeral
  have plain : Plain simulateGrammar number := plain_of_numeral lettered numeral
  have formulaPlain : Plain simulateGrammar formula := undashed.plain
  have marked : simulateGrammar.markAll [formula, "-n", number] =
      .ok [(formula, .plain), ("-n", .written ⟨"-n", runsSwitch, none⟩), (number, .plain)] :=
    formulaPlain.markAll (markAll_cons (by decide) rfl (plain.markAll rfl))
  -- The formula goes to its place first, and the switch takes the number behind it.
  have taken : simulateGrammar.take [formula, "-n", number] =
      .ok { given := [("formula", .text formula), ("runs", .whole runs)] } := by
    let behind : List (Text × Mark) :=
      [("-n", .written ⟨"-n", runsSwitch, none⟩), (number, .plain)]
    have placed : fillPlaces {} ((formula, .plain) :: behind) false [formulaPlace] =
        .ok ({ given := [("formula", .text formula)] }, ⟨behind, [], false⟩) :=
      fillPlaces_cons formulaPlain.apart (by simp [behind, isSeparator]) rfl
    have used : Taken.use { given := [("formula", .text formula)] } ⟨runsSwitch, [number]⟩ =
        .ok { given := [("formula", .text formula), ("runs", .whole runs)] } := by
      simp only [Taken.use, runsSwitch, valueOfAll_single _ plain.apart, counted]
      rfl
    apply take_eq_ok marked
    exact (takeAll_places 2 placed le_rfl).trans
      ((takeAll_switch [number] [] 1 rfl used).trans (takeAll_nil 1))
  have command : readCommand ["simulate", formula, "-n", number] =
      .ok (.simulate formula (some runs), false) := by
    have known : commandGrammar? "simulate" = some simulateGrammar := rfl
    simp only [readCommand, known, taken, Bind.bind, Except.bind]
    rfl
  exact read_of_command (by decide)
    (undashed.plain.markAll (markAll_cons (by decide) rfl
      ((plain_of_numeral lettered_general numeral).markAll rfl))) rfl command

/-- A switch for many arguments is followed by all plain ones up to the next switch. -/
theorem followersOf_many {switch : Switch} {arguments : List Text} {behind : List (Text × Mark)}
    (many : switch.takes = .many) (some : arguments ≠ [])
    (ends : ∀ first ∈ behind.head?, isPlain first = false) :
    followersOf switch (arguments.map (·, Mark.plain) ++ behind) = .ok arguments.length := by
  have plain : ∀ argument ∈ arguments.map (·, Mark.plain), isPlain argument = true := by
    intro argument member
    obtain ⟨_, -, rfl⟩ := List.mem_map.mp member
    rfl
  have none : behind.takeWhile isPlain = [] := by
    cases behind with
    | nil => rfl
    | cons first rest => exact List.takeWhile_cons_of_neg (by simp [ends first rfl])
  -- The plain arguments end where what stands behind them is not plain.
  have length : ((arguments.map (·, Mark.plain) ++ behind).takeWhile isPlain).length =
      arguments.length := by
    rw [List.takeWhile_append_of_pos plain, none, List.append_nil, List.length_map]
  have counted : arguments.length ≠ 0 := fun zero => some (List.length_eq_zero_iff.mp zero)
  simp only [followersOf, many, length, counted, if_false]

/-- The short name of the switch for the faces of a search. -/
def facesName : Text := "-f"

/-- The switch for the faces of a search. -/
def facesSwitch : Switch := ⟨[facesName, "--faces"], .many, .text⟩

/-- The short name of the switch for the limit of a search. -/
def limitName : Text := "-k"

/-- The switch for the limit of a search. -/
def limitSwitch : Switch := ⟨[limitName, "--max-candidates"], .one, .whole⟩

/-- The arguments of the command that searches candidates. -/
def generateGrammar : Grammar :=
  ⟨[helpSwitch, facesSwitch, limitSwitch], [⟨"min", .whole⟩, ⟨"max", .whole⟩], false⟩

/-- The arguments of a search with its faces and its limit, as they are typed. -/
def searchLine (low high : Text) (faces : List Text) (number : Text) : List Text :=
  low :: high :: facesName :: (faces ++ [limitName, number])

/-- The marks of the arguments of a search, where its two switches are marked in some way. -/
def searchMarks (low high : Text) (faces : List Text) (number : Text) (first second : Mark) :
    List (Text × Mark) :=
  (low, .plain) :: (high, .plain) :: (facesName, first) ::
    (faces.map (·, Mark.plain) ++ [(limitName, second), (number, .plain)])

/-- A search is marked argument by argument. -/
theorem markAll_searchLine {low high number : Text} {faces : List Text} {first second : Mark}
    (lowPlain : Plain grammar low) (highPlain : Plain grammar high)
    (facesPlain : ∀ face ∈ faces, Plain grammar face) (plain : Plain grammar number)
    (facesMarked : grammar.mark facesName = .ok first)
    (limitMarked : grammar.mark limitName = .ok second) :
    grammar.markAll (searchLine low high faces number) =
      .ok (searchMarks low high faces number first second) :=
  -- The marks are put on one after the other, from the front.
  lowPlain.markAll (highPlain.markAll (markAll_cons (by decide) facesMarked
    (markAll_append facesPlain (markAll_cons (by decide) limitMarked (plain.markAll rfl)))))

/-- What a search was given before its limit. -/
def searchGiven (min max : Int) (faces : List Text) : Entries Given :=
  [("min", .whole min), ("max", .whole max), ("faces", .texts faces)]

/-- The arguments of a search are taken into the places and the switches of their command. -/
theorem take_searchLine {low high number : Text} {min max limit : Int} {faces : List Text}
    (lowest : Numeral low min) (highest : Numeral high max) (some : faces ≠ [])
    (undashed : ∀ face ∈ faces, Undashed face) (numeral : Numeral number limit) :
    generateGrammar.take (searchLine low high faces number) =
      .ok { given := (searchGiven min max faces).store "max-candidates" (.whole limit) } := by
  have lettered : generateGrammar.Lettered := by decide +kernel
  have lowPlain : Plain generateGrammar low := plain_of_numeral lettered lowest
  have highPlain : Plain generateGrammar high := plain_of_numeral lettered highest
  have plain : Plain generateGrammar number := plain_of_numeral lettered numeral
  have facesPlain : ∀ face ∈ faces, Plain generateGrammar face :=
    fun face member => (undashed face member).plain
  let limits : List (Text × Mark) :=
    [(limitName, .written ⟨limitName, limitSwitch, none⟩), (number, .plain)]
  let behind : List (Text × Mark) :=
    (facesName, .written ⟨facesName, facesSwitch, none⟩) :: (faces.map (·, Mark.plain) ++ limits)
  let ends : Entries Given := [("min", .whole min), ("max", .whole max)]
  have placed : fillPlaces {} ((low, .plain) :: (high, .plain) :: behind) false
      generateGrammar.places = .ok ({ given := ends }, ⟨behind, [], false⟩) :=
    (fillPlaces_cons lowPlain.apart (by simp [isSeparator]) (valueOf_numeral lowest)).trans
      (fillPlaces_cons highPlain.apart (by simp [behind, isSeparator]) (valueOf_numeral highest))
  have follow : followersOf facesSwitch (faces.map (·, Mark.plain) ++ limits) = .ok faces.length :=
    followersOf_many rfl some (by simp [limits, isPlain])
  have kept : faces.erase separator = faces :=
    List.erase_of_not_mem fun member => absurd rfl (facesPlain _ member).apart
  have facesUsed : Taken.use { given := ends } ⟨facesSwitch, faces⟩ =
      .ok { given := searchGiven min max faces } := by
    simp only [Taken.use, facesSwitch, kept]
    rfl
  have limitUsed : Taken.use { given := searchGiven min max faces } ⟨limitSwitch, [number]⟩ =
      .ok { given := (searchGiven min max faces).store "max-candidates" (.whole limit) } := by
    simp only [Taken.use, limitSwitch, valueOfAll_single _ plain.apart, valueOf_numeral numeral]
    rfl
  apply take_eq_ok (markAll_searchLine lowPlain highPlain facesPlain plain rfl rfl)
  -- The places come first, then one switch after the other.
  have shorter : behind.length ≤ ((high, Mark.plain) :: behind).length := Nat.le_succ _
  refine (takeAll_places ((high, Mark.plain) :: behind).length placed shorter).trans ?_
  rw [List.length_cons]
  refine (takeAll_switch faces limits behind.length follow facesUsed).trans ?_
  obtain ⟨fuel, enough⟩ : ∃ fuel, behind.length = fuel + 1 := ⟨_, rfl⟩
  rw [enough]
  exact (takeAll_switch [number] [] fuel rfl limitUsed).trans (takeAll_nil fuel)

/-- The number behind the switch for the limit is that of the command, which has its faces from
behind the switch for these. -/
theorem read_generate {low high number : Text} {min max limit : Int} {faces : List Text}
    (lowest : Numeral low min) (highest : Numeral high max) (some : faces ≠ [])
    (undashed : ∀ face ∈ faces, Undashed face) (numeral : Numeral number limit) :
    Arguments.read ("generate" :: searchLine low high faces number) =
      .ok ⟨.missing, .missing, .missing, false, .generate min (.some max) faces (.some limit)⟩ := by
  -- The command has a grammar of its own, which reads the line behind its name.
  have command : readCommand ("generate" :: searchLine low high faces number) =
      .ok (.generate min (.some max) faces (.some limit), false) := by
    have known : commandGrammar? "generate" = .some generateGrammar := rfl
    simp only [readCommand, known, take_searchLine lowest highest some undashed numeral, Bind.bind,
      Except.bind]
    rfl
  -- The general grammar knows neither of the two switches, and leaves them to the command.
  have marked : generalGrammar.markAll (searchLine low high faces number) =
      .ok (searchMarks low high faces number .unknown .unknown) :=
    markAll_searchLine (plain_of_numeral lettered_general lowest)
      (plain_of_numeral lettered_general highest) (fun face member => (undashed face member).plain)
      (plain_of_numeral lettered_general numeral) rfl rfl
  have same : (searchMarks low high faces number .unknown .unknown).map Prod.fst =
      searchLine low high faces number := by
    simp only [searchMarks, searchLine, List.map_cons, List.map_append, map_fst_plain, List.map_nil]
  exact read_of_command (by decide) marked same command

end DiceLab.CommandLine
