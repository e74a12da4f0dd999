import DiceLab.Proofs.Console.Ends
import DiceLab.Proofs.Settings
import DiceLab.Proofs.Sheet.Distribution
import DiceLab.Proofs.Text.Words

/-! A console answers every line that leaves room for its numbers, unless the line asks for a search
with an end that passes the check of ends and still cannot be read. -/

namespace DiceLab

open Generator (roomyDigits)

/-- Settings within their bounds ask for no more rolls than are ever made. -/
theorem Settings.Valid.natAbs_rolls_le {settings : Settings} (valid : settings.Valid) :
    settings.simulationCount.natAbs ≤ mostTrials.natAbs := by
  obtain ⟨low, high⟩ := valid.rolls
  omega

namespace Console

open Decimal (Numeral)

section Steps

variable {α β : Type} {console : Console} {state : State}

/-- The wording of a session is that of its locale, and asking for it changes nothing. -/
theorem wording_bind {next : Wording → Action β}
    (behind : (next ⟨console.catalog, some state.locale⟩).Returns state) :
    (console.wording >>= next).Returns state := by
  have ends : console.wording.Ends state ⟨console.catalog, some state.locale⟩ state :=
    Session.bind_ends.mpr ⟨state, state, ⟨rfl, rfl⟩, Session.pure_ends.mpr ⟨rfl, rfl⟩⟩
  exact ends.bind behind

/-- Draws change nothing but the source of draws. -/
theorem withDice_bind {action : Session Dice α} {next : α → Action β}
    (starts : action.Returns state.dice)
    (behind : ∀ value last, action.Ends state.dice value last →
      (next value).Returns { state with dice := last }) :
    (withDice action >>= next).Returns state := by
  obtain ⟨value, last, ends⟩ := starts
  -- Only the dice move, so what follows starts in the same state with the dice behind.
  have whole : (withDice action).Ends state value { state with dice := last } :=
    Session.on_ends.mpr ⟨last, ends, rfl⟩
  exact whole.bind (behind value last ends)

/-- A line of markup is always shown. -/
theorem returns_say (markup : Text) : (say markup).Returns := Reported.returns_note _

/-- A roll of a formula that is not large comes out and can be written. -/
theorem rollOnce_bind {formula : Formula} (short : formula.size < tenTo roomyDigits)
    {next : Outcome → Action β}
    (behind : ∀ outcome last, Decimal.Writable outcome.total → outcome.Writable →
      (next outcome).Returns { state with dice := last }) :
    (withDice formula.rollOnce >>= next).Returns state := by
  obtain ⟨total, throws⟩ := Formula.writable_roll Source.dice_bounded
    (Nat.lt_of_lt_of_le short Generator.tenTo_roomyDigits_le) state.dice
  apply withDice_bind (Session.returns_ofState _ _)
  intro outcome last ends
  have rolled := Session.ofState_ends.mp ends
  -- What can be written is the roll itself, and the outcome is nothing else.
  have same : (formula.roll Source.dice.draw state.dice).1 = outcome := congrArg Prod.fst rolled
  rw [same] at total throws
  exact behind outcome last total throws

/-- A text with room for its numbers is rolled and shown. -/
theorem returns_roll {text : Text} (short : text.figures ≤ roomyDigits) :
    (console.roll text).Returns state := by
  -- A text with room has a formula whose numbers can all be written, and so can every total of its
  -- throws.
  obtain ⟨reading, read, small⟩ := Reading.exists_of_roomy short
  unfold roll
  apply Session.lift_known_bind read
  apply rollOnce_bind small
  intro outcome last total throws
  apply wording_bind
  exact Session.returns_lift (Sheet.returns_showOutcome _ total throws) _

/-- A locale is changed or turned down. -/
theorem returns_switchLocale (locale : Text) : (console.switchLocale locale).Returns state := by
  unfold switchLocale
  dsimp only
  -- An unknown locale is answered with a message, and the one in force stays.
  split
  · apply Session.Returns.bind ⟨state, state, rfl, rfl⟩
    intro before _ _
    apply Session.Returns.bind ⟨(), { before with locale }, rfl, rfl⟩
    intro _ _ _
    exact Session.returns_lift (returns_say _) _
  · exact Session.returns_lift (returns_say _) _

/-- Shows what is known about a formula that was read. -/
def showReading (console : Console) (normal : Text) (reading : Reading) : Action Unit := do
  let wording ← console.wording
  let stats ← (reading.formula.stats : Except Failure Stats)
  (Sheet.showStats normal stats wording Sheet.usualPadding : Reported Unit)
  let outcome ← withDice (Formula.rollOnce reading.formula)
  (Sheet.showOutcome outcome wording : Reported Unit)
  let _ ← withDice
    (Sheet.showDistribution (.reading reading) (.whole console.settings.simulationCount) wording)

/-- A formula that is not large is shown from all sides. -/
theorem returns_showReading (valid : console.settings.Valid) (normal : Text) {reading : Reading}
    (small : reading.formula.size < tenTo roomyDigits) :
    (console.showReading normal reading).Returns state := by
  obtain ⟨stats, known, least, most⟩ := Formula.exists_stats_of_roomy small
  -- The size of the formula bounds whatever is shown, and only the roll and the rolls behind it draw.
  apply wording_bind
  apply Session.lift_result_bind known
  apply Session.lift_bind (Sheet.returns_showStats _ _ least most _)
  intro _ _
  apply rollOnce_bind small
  intro outcome last total throws
  apply Session.lift_bind (Sheet.returns_showOutcome _ total throws)
  intro _ _
  apply withDice_bind (Sheet.returns_showDistribution _ small valid.natAbs_rolls_le _)
  intro _ _ _
  exact Session.returns_pure _ _

/-- A text with room for its numbers is looked at. -/
theorem returns_analyze (valid : console.settings.Valid) {text : Text}
    (short : text.figures ≤ roomyDigits) : (console.analyze text).Returns state := by
  obtain ⟨reading, read, small⟩ := Reading.exists_of_roomy short
  unfold analyze
  apply Session.lift_known_bind read
  apply Session.lift_result_bind (Formula.text_eq_ok.mpr ⟨Formula.writable_of_roomy small, rfl⟩)
  -- What was ignored is told first, if there is any.
  split
  · apply Session.lift_bind (returns_say _)
    intro _ _
    exact returns_showReading valid _ small
  · exact returns_showReading valid _ small

/-- Searches formulas for a target and shows what was found. -/
def search (console : Console) (target : Target) (faces : List Text) : Action Unit := do
  let found ← (candidates console.settings target faces console.settings.maxCandidates :
    Reported (List Candidate))
  (Sheet.showCandidates found (← console.wording) : Reported Unit)

/-- A search with room for its ends and its faces is made, and what it finds is shown. -/
theorem returns_search (valid : console.settings.Valid) {target : Target} {faces : List Text}
    (ends : target.min.natAbs < tenTo roomyDigits ∧ target.max.natAbs < tenTo roomyDigits)
    (named : ∀ face ∈ faces, face.figures ≤ roomyDigits)
    (usual : faces = [] → ∀ face ∈ console.settings.availableFaces, face.figures ≤ roomyDigits) :
    (console.search target faces).Returns state := by
  -- The faces of the settings take the place of faces that are not named.
  have short : ∀ name ∈ if faces.isEmpty then console.settings.availableFaces else faces,
      name.figures ≤ roomyDigits := by
    split
    · rename_i empty
      exact usual (List.isEmpty_iff.mp empty)
    · exact named
  obtain ⟨kept, found, showable⟩ := Generator.exists_search ends short valid.candidates
  have asked : (candidates console.settings target faces
      console.settings.maxCandidates).result = .ok kept := found
  unfold search
  apply Session.lift_known_bind asked
  apply wording_bind
  exact Session.returns_lift (Sheet.returns_showCandidates _ showable) _

end Steps

section Words

variable {words : List Text} {target : Target} {faces : List Text}

/-- Words that give a target with some faces: its ends are numerals, and the faces follow. -/
inductive Targeted : List Text → Target → List Text → Prop where
  | intro {low high : Text} {target : Target} {faces : List Text} (least : Numeral low target.min)
      (most : Numeral high target.max) : Targeted (low :: high :: faces) target faces

/-- Words that do not start with two ends. -/
def Endless (words : List Text) : Prop :=
  ∀ low high faces, words = low :: high :: faces → (isEnd low && isEnd high) = false

/-- Words that start with two ends which are not both numerals. -/
inductive Misread : List Text → Prop where
  | intro {low high : Text} {faces : List Text} (ends : (isEnd low && isEnd high) = true)
      (unread : ∀ target, ¬Targeted (low :: high :: faces) target faces) :
      Misread (low :: high :: faces)

/-- Words do not start with two ends, or give a target, or are misread. -/
theorem words_cases (words : List Text) :
    Endless words ∨ (∃ target faces, Targeted words target faces) ∨ Misread words := by
  -- A search needs two words in front, and only these can be ends.
  match words with
  | [] => exact .inl (by simp [Endless])
  | [_] => exact .inl (by simp [Endless])
  | low :: high :: faces =>
    cases ends : isEnd low && isEnd high with
    | false =>
      left
      intro _ _ _ same
      cases same
      exact ends
    | true =>
      right
      by_cases given : ∃ target, Targeted (low :: high :: faces) target faces
      · obtain ⟨target, targeted⟩ := given
        exact .inl ⟨target, faces, targeted⟩
      · exact .inr ⟨ends, not_exists.mp given⟩

variable {console : Console} {state : State}

/-- Without two ends the usage is shown. -/
theorem forge_of_endless (endless : Endless words) :
    console.forge words = (showSearchUsage : Reported Unit) := by
  match words with
  | [] => rfl
  | [_] => rfl
  | low :: high :: faces =>
    exact if_neg (by simp [endless low high faces rfl])

/-- Two ends are read before anything is searched for. -/
theorem forge_of_ends {low high : Text} (ends : (isEnd low && isEnd high) = true) :
    console.forge (low :: high :: faces) = (do
      let least ← (Decimal.parse low : Except Failure Int)
      let most ← (Decimal.parse high : Except Failure Int)
      console.search ⟨least, most⟩ faces) := if_pos ends

/-- With a target the search is made. -/
theorem forge_of_targeted (targeted : Targeted words target faces) :
    console.forge words = console.search target faces := by
  obtain ⟨least, most⟩ := targeted
  have lowEnd := isEnd_of_numeral least
  have highEnd := isEnd_of_numeral most
  -- What is spelled as a numeral looks like an end and is parsed to its value.
  rw [forge_of_ends (by rw [lowEnd, highEnd]; rfl), (parse_of_isEnd lowEnd).mpr least,
    (parse_of_isEnd highEnd).mpr most, Session.lift_ok_bind, Session.lift_ok_bind]

/-- Words with room for their numbers are searched for, or the usage is shown, unless they are
misread. -/
theorem returns_forge (valid : console.settings.Valid)
    (short : ∀ word ∈ words, word.figures ≤ roomyDigits)
    (usual : words.length = 2 →
      ∀ face ∈ console.settings.availableFaces, face.figures ≤ roomyDigits)
    (read : ¬Misread words) : (console.forge words).Returns state := by
  rcases words_cases words with endless | ⟨target, faces, targeted⟩ | misread
  · rw [forge_of_endless endless]
    exact Session.returns_lift (returns_say _) _
  · rw [forge_of_targeted targeted]
    obtain ⟨least, most⟩ := targeted
    rw [List.forall_mem_cons, List.forall_mem_cons] at short
    obtain ⟨low, high, named⟩ := short
    -- The digits of a word bound the number that it spells.
    have ends := And.intro (Nat.lt_of_lt_of_le least.natAbs_lt (tenTo_le low))
      (Nat.lt_of_lt_of_le most.natAbs_lt (tenTo_le high))
    apply returns_search valid ends named
    intro none
    exact usual (by rw [none]; rfl)
  · exact absurd misread read

end Words

section Lines

variable {console : Console} {line : Text} {words : List Text} {state : State}

/-- A line that asks for a search, with the words behind the command. -/
def Asks (line : Text) (words : List Text) : Prop :=
  (Text.cutAtSpace line.strip).1 = ":gen" ∧ (Text.cutAtSpace line.strip).2.words = words

/-- A line whose numbers leave room for all that is computed from them, and whose ends, if it asks for
a search, can be read. -/
structure Manageable (console : Console) (line : Text) : Prop where
  short : line.figures ≤ roomyDigits
  read : ∀ words, Asks line words → ¬Misread words
  /-- The faces of the settings are used when the line names none. -/
  usual : ∀ words, Asks line words → words.length = 2 →
    ∀ face ∈ console.settings.availableFaces, face.figures ≤ roomyDigits

/-- The words that a line asks with have no more figures than the line. -/
theorem Asks.figures_le (asks : Asks line words) : ∀ word ∈ words, word.figures ≤ line.figures := by
  obtain ⟨-, rfl⟩ := asks
  intro word member
  have inside := (Text.sublist_of_mem_words member).trans (Text.cutAtSpace_sublist line.strip)
  exact Text.figures_le (inside.trans (Text.strip_sublist line))

/-- A line is blank, or asks to quit, or is followed. -/
theorem handle_eq (console : Console) (line : Text) :
    console.handle line =
      if line.strip.isEmpty then pure true
      else if isQuit line.strip then pure false
      else do
        console.follow line.strip
        return true := rfl

/-- The two lines that ask to quit. -/
theorem isQuit_iff {line : Text} : isQuit line = true ↔ line = "q" ∨ line = "Q" := by
  have small : ("q" : Text) = [.char 'q'] := rfl
  have capital : ("Q" : Text) = [.char 'Q'] := rfl
  rw [small, capital]
  simp [isQuit]

/-- The answer is no exactly when the line asks to quit. -/
theorem ends_false_iff (console : Console) (line : Text) (state : State) :
    (∃ last, (console.handle line).Ends state false last) ↔
      line.strip = "q" ∨ line.strip = "Q" := by
  rw [handle_eq, ← isQuit_iff]
  cases empty : line.strip.isEmpty with
  | true =>
    rw [List.isEmpty_iff.mp empty]
    -- An empty line goes on, and it is neither of the two words.
    simp [Session.pure_ends, isQuit]
  | false =>
    cases quit : isQuit line.strip with
    -- A line that is followed answers `true` whatever it does.
    | true => simp [Session.pure_ends]
    | false => simp [Session.bind_ends, Session.pure_ends]

/-- A line that starts with a command is neither blank nor asks to quit. -/
theorem handle_of_command (console : Console) {command : Text}
    (starts : (Text.cutAtSpace line.strip).1 = .char ':' :: command) :
    console.handle line = (do
      console.follow line.strip
      return true) := by
  have empty : line.strip.isEmpty = false := by
    cases stripped : line.strip with
    | nil =>
      rw [stripped] at starts
      cases starts
    | cons _ _ => rfl
  have quit : isQuit line.strip = false := by
    apply Bool.eq_false_iff.mpr
    intro asked
    -- Neither of the two lines that ask to quit is a command.
    rcases isQuit_iff.mp asked with stripped | stripped
    · rw [stripped] at starts
      cases starts
    · rw [stripped] at starts
      cases starts
  rw [handle_eq, empty, quit]
  rfl

/-- A line that is neither blank nor asks to quit is followed to its end when it can be managed. -/
theorem returns_follow (valid : console.settings.Valid) (manageable : console.Manageable line) :
    (console.follow line.strip).Returns state := by
  have stripped := Nat.le_trans (Text.figures_le (Text.strip_sublist line)) manageable.short
  have behind := Nat.le_trans (Text.figures_le (Text.cutAtSpace_sublist line.strip)) stripped
  unfold follow
  split
  rename_i first rest cut
  rw [cut] at behind
  -- Three commands use the rest of the line, and a line that is no command is a formula.
  split
  · rename_i command
    have asks : Asks line rest.words := by
      unfold Asks
      rw [cut]
      exact ⟨Text.eq_ofString command, rfl⟩
    apply returns_forge valid _ (manageable.usual _ asks) (manageable.read _ asks)
    intro word member
    exact Nat.le_trans (asks.figures_le word member) manageable.short
  · exact returns_roll behind
  · exact returns_switchLocale _
  · split
    · exact Session.returns_lift (returns_say _) _
    · exact returns_analyze valid stripped

/-- A line that can be managed is answered. -/
theorem returns_handle (valid : console.settings.Valid) (manageable : console.Manageable line)
    (state : State) : (console.handle line).Returns state := by
  rw [handle_eq]
  split
  · -- Neither an empty line nor the last one does anything.
    exact Session.returns_pure _ _
  · split
    · exact Session.returns_pure _ _
    · apply (returns_follow valid manageable).bind
      intro _ _ _
      exact Session.returns_pure _ _

/-- Lines that can all be managed are handled to the last one, or to the first that asks to quit. -/
theorem returns_handleAll (valid : console.settings.Valid) {lines : List (Option Text)}
    (manageable : ∀ line, some line ∈ lines → console.Manageable line) (state : State) :
    (console.handleAll lines).Returns state := by
  -- Each line may change the locale and the source of draws for the next one.
  induction lines generalizing state with
  | nil => exact Session.returns_pure _ _
  | cons first rest ih =>
    cases first with
    | none => exact Session.returns_pure _ _
    | some line =>
      unfold handleAll
      apply (returns_handle valid (manageable line List.mem_cons_self) state).bind
      intro goesOn between _
      split
      · exact ih (fun line member => manageable line (List.mem_cons_of_mem _ member)) between
      · exact Session.returns_pure _ _

/-- A session of lines that can all be managed comes to its end. -/
theorem returns_run (valid : console.settings.Valid) {lines : List (Option Text)}
    (manageable : ∀ line, some line ∈ lines → console.Manageable line) (state : State) :
    (console.run lines).Returns state :=
  Session.lift_bind (Reported.returns_note _) fun _ _ => returns_handleAll valid manageable state

/-- What a console makes of a line in a state. -/
structure Answers (console : Console) (line : Text) (state : State) : Prop where
  /-- The answer is no when the line asks to quit, and only then. -/
  quits : (∃ last, (console.handle line).Ends state false last) ↔
    line.strip = "q" ∨ line.strip = "Q"
  /-- A search is turned down with its usage, or made, or fails because an end was misread. -/
  asked : ∀ words, Asks line words →
    (Endless words ∧ console.handle line state =
      (⟨[.print (.text (Sheet.styled "red" "Usage: :gen MIN MAX [FACE ...]"))], .ok true⟩,
        state)) ∨
    (∃ target faces, Targeted words target faces ∧ console.handle line = (do
      console.search target faces
      return true)) ∨
    (Misread words ∧ ¬(console.handle line).Returns state)
  /-- Whatever the line says, it is answered when it can be managed. -/
  survives : console.Manageable line → (console.handle line).Returns state

end Lines

end Console

end DiceLab
