import DiceLab.Proofs.Console

/-! A session stays in its locale until a line chooses another one, and it handles the lines of the
user up to the first one that asks to quit. -/

namespace DiceLab

namespace Session

variable {σ α β γ : Type}

/-- A value is handed to the step behind it. -/
theorem pure_bind (value : α) (next : α → Session σ β) : pure value >>= next = next value := rfl

/-- Nothing has to be done behind a computation that gives no value. -/
theorem bind_pure_unit (action : Session σ Unit) : (do action; pure ()) = action := by
  funext state
  simp only [Bind.bind, Pure.pure]
  rcases action state with ⟨⟨notices, failure | value⟩, last⟩
  · rfl
  · simp only [List.append_nil]

/-- Steps of a computation may be grouped in either way. -/
theorem bind_assoc (first : Session σ α) (next : α → Session σ β) (last : β → Session σ γ) :
    first >>= next >>= last = first >>= fun value => next value >>= last := by
  -- The first step that fails ends the computation, wherever the brackets stand.
  funext state
  simp only [Bind.bind]
  rcases first state with ⟨⟨notices, failure | value⟩, between⟩
  · rfl
  · dsimp only
    rcases next value between with ⟨⟨others, failure | middle⟩, behind⟩
    · rfl
    · simp only [List.append_assoc]

end Session

namespace Console

/-- A line with the command for locales, and the locale that it names. -/
inductive Names : Text → Text → Prop where
  /-- Nothing follows the command, so the locale has no name. -/
  | bare {line : Text} (command : line.strip = ":lang") : Names line []
  /-- The name follows one space; blanks around it do not count. -/
  | spaced {line name : Text} (command : line.strip = ":lang " ++ name) : Names line name.strip

/-- A line that names a locale for which there are texts. -/
def Chooses (catalog : Catalog) (line locale : Text) : Prop :=
  Names line locale ∧ locale ∈ catalog.locales

/-- The locale behind some lines: that of the last line which chooses one, or else the usual one. -/
inductive InForce (catalog : Catalog) (usual : Text) : List Text → Text → Prop where
  /-- No line chooses a locale. -/
  | usual {lines : List Text} (none : ∀ line ∈ lines, ∀ locale, ¬Chooses catalog line locale) :
    InForce catalog usual lines usual
  /-- A line chooses the locale, and none behind it chooses any. -/
  | chosen {before after : List Text} {line locale : Text} (chooses : Chooses catalog line locale)
    (none : ∀ later ∈ after, ∀ other, ¬Chooses catalog later other) :
    InForce catalog usual (before ++ line :: after) locale

/-- Handles lines one after another, whatever is answered. -/
def handleEach (console : Console) : List Text → Action Unit
  | [] => return ()
  | line :: rest => do
    let _ ← console.handle line
    console.handleEach rest

section Names

variable {line locale : Text}

/-- The name of a locale is what follows the first space of a line. -/
theorem names_iff : Names line locale ↔
    (Text.cutAtSpace line.strip).1 = ":lang" ∧ (Text.cutAtSpace line.strip).2.strip = locale := by
  constructor
  · intro names
    cases names with
    | bare command =>
      rw [command]
      exact ⟨rfl, rfl⟩
    | spaced command =>
      rw [command]
      exact ⟨rfl, rfl⟩
  · rintro ⟨command, rfl⟩
    have parts : (Text.cutAtSpace line.strip).1 ++ line.strip.dropWhile (· != .char ' ') =
        line.strip := List.takeWhile_append_dropWhile
    rw [command] at parts
    -- Either the command is the whole line, or the rest starts with the space that ends it.
    cases behind : line.strip.dropWhile (· != .char ' ') with
    | nil =>
      rw [behind, List.append_nil] at parts
      rw [Text.cutAtSpace, behind]
      exact .bare parts.symm
    | cons point rest =>
      have space : (point != .char ' ') = false := by
        have stops := List.head?_dropWhile_not (· != CodePoint.char ' ') line.strip
        rwa [behind] at stops
      rw [bne_eq_false_iff_eq] at space
      rw [behind, space] at parts
      rw [Text.cutAtSpace, behind]
      exact .spaced parts.symm

/-- A line names one locale at most. -/
theorem Names.unique {other : Text} (names : Names line locale) (again : Names line other) :
    locale = other := by
  rw [← (names_iff.mp names).2, (names_iff.mp again).2]

end Names

/-- However a computation ends, the locale is the one it was started in. -/
def KeepsLocale {α : Type} (action : Action α) : Prop :=
  ∀ (state : State) (value : α) (last : State),
    action.Ends state value last → last.locale = state.locale

section Locale

variable {α β : Type} {console : Console} {state last : State} {line : Text} {answer : Bool}

/-- Two steps keep the locale when both do. -/
theorem KeepsLocale.bind {first : Action α} {next : α → Action β} (starts : KeepsLocale first)
    (behind : ∀ value, KeepsLocale (next value)) : KeepsLocale (first >>= next) := by
  intro state value last ends
  obtain ⟨middle, between, begun, done⟩ := Session.bind_ends.mp ends
  exact (behind middle _ _ _ done).trans (starts _ _ _ begun)

/-- A value keeps the locale. -/
theorem keepsLocale_pure (value : α) : KeepsLocale (pure value) := by
  intro state given last ends
  rw [(Session.pure_ends.mp ends).2]

/-- A report keeps the locale, since it has no part in the session. -/
theorem keepsLocale_lift (report : Reported α) : KeepsLocale (liftM report : Action α) := by
  intro state value last ends
  rw [(Session.lift_ends.mp ends).2]

/-- A plain result keeps the locale. -/
theorem keepsLocale_result (result : Except Failure α) : KeepsLocale (liftM result : Action α) := by
  intro state value last ends
  rw [(Session.lift_result_ends.mp ends).2]

/-- Draws keep the locale. -/
theorem keepsLocale_withDice (action : Session Dice α) : KeepsLocale (withDice action) := by
  intro state value last ends
  obtain ⟨dice, -, rfl⟩ := Session.on_ends.mp ends
  rfl

/-- Asking for the wording keeps the locale. -/
theorem keepsLocale_wording (console : Console) : KeepsLocale console.wording := by
  intro state value last ends
  obtain ⟨middle, between, ⟨-, rfl⟩, done⟩ := Session.bind_ends.mp ends
  rw [← (Session.pure_ends.mp done).2]
  rfl

/-- A roll keeps the locale. -/
theorem keepsLocale_roll (text : Text) : KeepsLocale (console.roll text) := by
  unfold roll
  -- Rolling moves the dice and prints; each step leaves the locale as it was.
  apply (keepsLocale_lift _).bind
  intro reading
  apply (keepsLocale_withDice _).bind
  intro outcome
  apply (keepsLocale_wording console).bind
  intro wording
  exact keepsLocale_lift _

/-- A search keeps the locale. -/
theorem keepsLocale_forge (words : List Text) : KeepsLocale (console.forge words) := by
  unfold forge
  split
  · split
    · apply (keepsLocale_result _).bind
      intro low
      apply (keepsLocale_result _).bind
      intro high
      apply (keepsLocale_lift _).bind
      intro found
      apply (keepsLocale_wording console).bind
      intro wording
      exact keepsLocale_lift _
    · exact keepsLocale_lift _
  · exact keepsLocale_lift _

/-- Showing a formula keeps the locale. -/
theorem keepsLocale_showReading (normal : Text) (reading : Reading) :
    KeepsLocale (console.showReading normal reading) := by
  unfold showReading
  apply (keepsLocale_wording console).bind
  intro wording
  apply (keepsLocale_result _).bind
  intro stats
  apply (keepsLocale_lift _).bind
  intro _
  apply (keepsLocale_withDice _).bind
  intro outcome
  apply (keepsLocale_lift _).bind
  intro _
  apply (keepsLocale_withDice _).bind
  intro histogram
  exact keepsLocale_pure _

/-- Looking at a text keeps the locale. -/
theorem keepsLocale_analyze (text : Text) : KeepsLocale (console.analyze text) := by
  unfold analyze
  apply (keepsLocale_lift _).bind
  intro reading
  apply (keepsLocale_result _).bind
  intro normal
  -- Whether the text was normal only decides what is printed in front.
  split
  · apply (keepsLocale_lift _).bind
    intro _
    exact keepsLocale_showReading normal reading
  · exact keepsLocale_showReading normal reading

/-- A locale that has texts is taken. -/
theorem switchLocale_of_known {locale : Text} (known : locale ∈ console.catalog.locales) :
    console.switchLocale locale = (do
      Session.set { (← Session.get) with locale }
      (say ("Locale set to " ++ Sheet.styled "bold" locale) : Reported Unit)) :=
  if_pos (List.contains_iff_mem.mpr known)

/-- A locale without texts is turned down. -/
theorem switchLocale_of_unknown {locale : Text} (unknown : locale ∉ console.catalog.locales) :
    console.switchLocale locale = (say (Sheet.styled "red" ("Unknown locale '" ++ locale ++ "'") ++
      ". Available: " ++ Text.join ", " console.catalog.locales) : Reported Unit) :=
  if_neg (mt List.contains_iff_mem.mp unknown)

/-- A locale is changed to a known one only. -/
theorem locale_of_switchLocale {locale : Text}
    (ends : (console.switchLocale locale).Ends state () last) :
    last.locale = if locale ∈ console.catalog.locales then locale else state.locale := by
  split
  · rename_i known
    rw [switchLocale_of_known known] at ends
    -- The state is read and written back with the new locale, and then a message is printed.
    obtain ⟨_, _, ⟨-, rfl⟩, ends⟩ := Session.bind_ends.mp ends
    obtain ⟨_, _, ⟨-, rfl⟩, ends⟩ := Session.bind_ends.mp ends
    rw [← (Session.lift_ends.mp ends).2]
    rfl
  · rename_i unknown
    rw [switchLocale_of_unknown unknown] at ends
    rw [← (Session.lift_ends.mp ends).2]

/-- Following a line without the command for locales keeps the locale. -/
theorem keepsLocale_follow {text : Text} (other : (Text.cutAtSpace text).1 ≠ ":lang") :
    KeepsLocale (console.follow text) := by
  unfold follow
  split
  rename_i command rest cut
  rw [cut] at other
  split
  · exact keepsLocale_forge _
  · exact keepsLocale_roll _
  · -- The one command that may switch the locale is left out by the hypothesis.
    rename_i known
    exact absurd (Text.eq_ofString known) other
  · split
    · exact keepsLocale_lift _
    · exact keepsLocale_analyze _

/-- A line that names no locale keeps the one it is handled in. -/
theorem keepsLocale_handle (silent : ∀ locale, ¬Names line locale) :
    KeepsLocale (console.handle line) := by
  rw [handle_eq]
  split
  · exact keepsLocale_pure _
  · split
    · exact keepsLocale_pure _
    · -- A line with the command names a locale, if only the empty one.
      apply KeepsLocale.bind
      · exact keepsLocale_follow fun command => silent _ (names_iff.mpr ⟨command, rfl⟩)
      · intro _
        exact keepsLocale_pure _

/-- A line with the command for locales asks for the one that it names. -/
theorem handle_of_names (console : Console) {locale : Text} (names : Names line locale) :
    console.handle line = (do
      console.switchLocale locale
      return true) := by
  obtain ⟨command, rfl⟩ := names_iff.mp names
  rw [handle_of_command console command]
  unfold follow
  split
  rename_i first rest cut
  -- The command is known, so the rest of the line is the locale.
  rw [cut] at command ⊢
  obtain rfl : first = ":lang" := command
  simp only [Text.string?_ofString]

/-- A line that is handled changes the locale to the one it chooses, if it chooses one. -/
theorem locale_of_handle (ends : (console.handle line).Ends state answer last) :
    Chooses console.catalog line last.locale ∨
      (∀ locale, ¬Chooses console.catalog line locale) ∧ last.locale = state.locale := by
  by_cases named : ∃ locale, Names line locale
  · obtain ⟨locale, names⟩ := named
    rw [handle_of_names console names] at ends
    obtain ⟨_, between, switched, done⟩ := Session.bind_ends.mp ends
    have changed := locale_of_switchLocale switched
    rw [(Session.pure_ends.mp done).2] at changed
    -- The named locale is taken when it has texts, and no other one can be chosen.
    split at changed
    · rename_i known
      rw [changed]
      exact .inl ⟨names, known⟩
    · rename_i unknown
      refine .inr ⟨?_, changed⟩
      rintro other ⟨again, known⟩
      rw [← names.unique again] at known
      exact unknown known
  · rw [not_exists] at named
    exact .inr ⟨fun locale chooses => named locale chooses.1, keepsLocale_handle named _ _ _ ends⟩

/-- A line in front of others leaves the choice to them, or makes it when none of them does. -/
theorem InForce.cons {catalog : Catalog} {start next locale : Text} {rest : List Text}
    (choice : Chooses catalog line next ∨
      (∀ other, ¬Chooses catalog line other) ∧ next = start)
    (behind : InForce catalog next rest locale) : InForce catalog start (line :: rest) locale := by
  cases behind with
  | usual none =>
    -- When no later line chooses, this line does or the locale from before it stays.
    rcases choice with chooses | ⟨silent, rfl⟩
    · show InForce catalog start ([] ++ line :: rest) next
      exact .chosen chooses none
    · exact .usual (List.forall_mem_cons.mpr ⟨silent, none⟩)
  | @chosen before after later locale chooses none =>
    show InForce catalog start ((line :: before) ++ later :: after) locale
    -- The last line that chooses is a later one, so this one only stands before it.
    exact .chosen chooses none

/-- Behind lines that were handled, the locale is the one in force. -/
theorem inForce_of_handleEach {lines : List Text}
    (handled : (console.handleEach lines).Ends state () last) :
    InForce console.catalog state.locale lines last.locale := by
  -- The first line leaves the locale in which the others are handled.
  induction lines generalizing state with
  | nil =>
    rw [← (Session.pure_ends.mp handled).2]
    exact .usual (by simp)
  | cons line rest ih =>
    obtain ⟨answer, between, first, others⟩ := Session.bind_ends.mp handled
    exact .cons (locale_of_handle first) (ih others)

end Locale

/-- A line that asks to quit. -/
def Quits (line : Text) : Prop := line.strip = "q" ∨ line.strip = "Q"

instance (line : Text) : Decidable (Quits line) := inferInstanceAs (Decidable (_ ∨ _))

section Run

variable (console : Console) {lines : List Text} {line : Text}

/-- Lines behind others are handled when those have been. -/
theorem handleEach_append (before after : List Text) :
    console.handleEach (before ++ after) = (do
      console.handleEach before
      console.handleEach after) := by
  induction before with
  | nil => exact (Session.pure_bind _ _).symm
  | cons line rest ih =>
    simp only [List.cons_append, handleEach, ih, Session.bind_assoc]

/-- A line that asks to quit is answered with no, and nothing else happens. -/
theorem handle_of_quits (quits : Quits line) : console.handle line = pure false := by
  have asked := isQuit_iff.mpr quits
  rw [handle_eq, if_pos asked]
  -- A blank line does not ask for anything.
  split
  · rename_i empty
    rw [List.isEmpty_iff.mp empty] at asked
    cases asked
  · rfl

/-- Behind a line that does not ask to quit the session goes on. -/
theorem handle_bind_of_stays (stays : ¬Quits line) (action : Action Unit) :
    (do if ← console.handle line then action else return ()) = (do
      let _ ← console.handle line
      action) := by
  funext state
  have answered : (console.handle line state).1.result ≠ .ok false := fun no =>
    stays ((ends_false_iff console line state).mp ⟨_, no, rfl⟩)
  simp only [Bind.bind]
  revert answered
  -- The line fails, or its answer is yes.
  rcases console.handle line state with ⟨⟨notices, failure | answer⟩, last⟩
  · intro _
    rfl
  · intro answered
    cases answer with
    | true => rfl
    | false => exact absurd rfl answered

/-- Lines that do not ask to quit are handled one after another. -/
theorem handleAll_append (stays : ∀ line ∈ lines, ¬Quits line) (rest : List (Option Text)) :
    console.handleAll (lines.map some ++ rest) = (do
      console.handleEach lines
      console.handleAll rest) := by
  induction lines with
  | nil => exact (Session.pure_bind _ _).symm
  | cons line others ih =>
    rw [List.forall_mem_cons] at stays
    -- Each line that stays is handled like one of a plain list, and the session goes on behind it.
    rw [List.map_cons, List.cons_append, handleAll, ih stays.2,
      handle_bind_of_stays console stays.1, handleEach, Session.bind_assoc]

/-- A line that asks to quit is the last one that is handled. -/
theorem handleAll_of_quits (quits : Quits line) (rest : List (Option Text)) :
    console.handleAll (some line :: rest) = console.handleEach [line] := by
  simp only [handleAll, handleEach, handle_of_quits console quits]
  rfl

end Run

/-- What becomes of the lines of a session. -/
structure Course (console : Console) (dice : Dice) : Prop where
  /-- After each of some lines that are handled, the locale is the one in force behind those so far. -/
  locale : ∀ before after last,
    (console.handleEach (before ++ after)).Ends (console.start dice) () last →
      ∃ between, (console.handleEach before).Ends (console.start dice) () between ∧
        InForce console.catalog console.settings.locale before between.locale ∧
        (console.handleEach after).Ends between () last
  /-- A line that chooses no locale leaves it alone, whatever came before. -/
  kept : ∀ line state answer last, (console.handle line).Ends state answer last →
    (∀ locale, ¬Chooses console.catalog line locale) → last.locale = state.locale
  /-- The first line that asks to quit is the last one handled, whatever follows it. -/
  quits : ∀ before line rest, (∀ earlier ∈ before, ¬Quits earlier) → Quits line →
    console.run (before.map some ++ some line :: rest) = (do
      (Reported.print banner : Reported Unit)
      console.handleEach (before ++ [line]))
  /-- When no line asks to quit, all of them are handled up to where the user breaks off. -/
  lasts : ∀ lines rest, (∀ line ∈ lines, ¬Quits line) → rest.head?.join = none →
    console.run (lines.map some ++ rest) = (do
      (Reported.print banner : Reported Unit)
      console.handleEach lines)

/--
A session is in the locale that was last chosen among those with texts, or in that of its settings,
and its lines are handled in order up to the first one that asks to quit.

The settings and the catalog are those of the console, which handles each of the lines: a line can
change nothing but the locale and the source of draws, of which the state consists.
-/
theorem session_course (console : Console) (dice : Dice) : console.Course dice where
  locale := by
    intro before after last handled
    rw [handleEach_append] at handled
    obtain ⟨_, between, first, others⟩ := Session.bind_ends.mp handled
    exact ⟨between, first, inForce_of_handleEach first, others⟩
  kept := by
    intro line state answer last ends silent
    rcases locale_of_handle ends with chooses | ⟨-, same⟩
    · exact absurd chooses (silent _)
    · exact same
  quits := by
    intro before line rest stays quits
    rw [run, handleAll_append console stays, handleAll_of_quits console quits,
      handleEach_append]
  lasts := by
    intro lines rest stays ended
    have last : console.handleAll rest = pure () := by
      cases rest with
      | nil => rfl
      | cons first others =>
        obtain rfl : first = none := by simpa using ended
        rfl
    rw [run, handleAll_append console stays, last, Session.bind_pure_unit]

/-- Spanish stays in force when a language without texts is asked for, and up to the end. -/
theorem session_course_spanish :
    let console : Console := ⟨{}, .packaged⟩
    let lines : List Text := ["\t:lang  es ", ":lang xx"]
    (console.handleEach lines).Ends (console.start .standard) () ⟨"es", .standard⟩ ∧
      InForce console.catalog "en" lines "es" ∧
      (∀ locale, ¬Chooses console.catalog ":lang xx" locale) ∧
      console.run (lines.map some ++ some (" Q" : Text) :: [some ":lang en"]) = (do
        (Reported.print banner : Reported Unit)
        console.handleEach (lines ++ [(" Q" : Text)])) := by
  intro console lines
  have spanish : Names "\t:lang  es " "es" := names_iff.mpr ⟨by decide +kernel, by decide +kernel⟩
  have unknown : Names ":lang xx" "xx" := names_iff.mpr ⟨by decide +kernel, by decide +kernel⟩
  have known : ("es" : Text) ∈ console.catalog.locales :=
    List.mem_mergeSort.mpr (by decide +kernel)
  have missing : ("xx" : Text) ∉ console.catalog.locales :=
    mt List.mem_mergeSort.mp (by decide +kernel)
  have handled : (console.handleEach lines).Ends (console.start .standard) () ⟨"es", .standard⟩ := by
    simp only [lines, handleEach, handle_of_names console spanish, handle_of_names console unknown,
      switchLocale_of_known known, switchLocale_of_unknown missing]
    exact ⟨rfl, rfl⟩
  have course := session_course console .standard
  obtain ⟨between, -, force, after⟩ := course.locale lines [] _ (by rwa [List.append_nil])
  -- Nothing is handled behind these lines.
  rw [(Session.pure_ends.mp after).2] at force
  refine ⟨handled, force, ?_, course.quits lines _ _ (by decide +kernel) (by decide +kernel)⟩
  rintro locale ⟨names, inside⟩
  rw [← unknown.unique names] at inside
  exact missing inside

end Console

end DiceLab
