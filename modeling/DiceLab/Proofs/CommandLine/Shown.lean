import DiceLab.CommandLine
import DiceLab.Proofs.Report.Quiet
import DiceLab.Proofs.Settings.Loading

/-! Reading, searching and loading settings show nothing, so a run shows what its command shows. -/

namespace DiceLab

variable {α β σ : Type}

namespace Reported

/-- A walk shows nothing when none of its steps does. -/
theorem quiet_mapM {step : α → Reported β} (each : ∀ item, (step item).Quiet) (items : List α) :
    (items.mapM step).Quiet := by
  induction items with
  | nil => exact quiet_pure _
  | cons item rest ih =>
    rw [List.mapM_cons]
    exact (each item).bind fun _ => ih.bind fun _ => quiet_pure _

/-- A failure shows nothing. -/
theorem quiet_fail (failure : Failure) : (fail failure : Reported α).Quiet := rfl

/-- What is made of a result that was not shown is not shown either. -/
theorem Quiet.map {report : Reported α} (quiet : report.Quiet) (change : α → β) :
    (change <$> report).Quiet := by
  rw [map_eq_pure_bind]
  exact quiet.bind fun _ => quiet_pure _

/-- A number that is written into a message is not shown. -/
theorem quiet_write (value : Int) : (write value).Quiet := quiet_lift _

end Reported

open Reported (quiet_pure quiet_lift quiet_warn quiet_log quiet_mapM quiet_fail quiet_write)

/-- A text is read without being shown. -/
theorem Reading.quiet_ofText (text : Text) : (ofText text).Quiet := by
  -- A piece that is not read to its end is warned of, and a warning is not printed.
  have piece : ∀ chunk, (Piece.read chunk).Quiet := by
    intro chunk
    refine (quiet_lift _).bind fun part => ?_
    dsimp only
    split
    · exact (quiet_warn _).bind fun _ => quiet_pure _
    · exact quiet_pure _
  unfold ofText
  dsimp only
  split
  · exact quiet_pure _
  · refine (quiet_mapM piece _).bind fun pieces => ?_
    exact (quiet_lift _).bind fun shown => rfl

/-- A value is turned into text without being shown. -/
theorem quiet_ensureText (name default : Text) (value : Value) :
    (ensureText name default value).Quiet := by
  have told : ∀ text, (do
      warnNotText name value.kindName text
      return text : Reported Text).Quiet := fun text => (quiet_warn _).bind fun _ => quiet_pure _
  cases value with
  | text value => exact quiet_pure _
  -- Whatever is no text is warned of, and what it is written as is taken instead.
  | null => exact (quiet_pure _).bind told
  | truth _ | whole _ | real _ | list _ | table _ => exact (quiet_lift _).bind told

/-- What a draft stands for is read without being shown. -/
theorem Draft.quiet_read (draft : Draft) : draft.read.Quiet := by
  cases draft with
  | reading known => exact quiet_pure _
  | value given => exact (quiet_ensureText _ _ given).bind Reading.quiet_ofText

/-- What follows the look for a face shows nothing when it does not for a known face nor for an
unknown one. -/
theorem FaceTag.quiet_look {next : Option Face → Reported (Option Face)} (value : Value)
    (unknown : (next none).Quiet) (known : ∀ face, (next (some face)).Quiet) :
    (ensureText "face tag" "" value >>= fun text =>
      (readText text.squeeze : Reported (Option Face)) >>= next).Quiet := by
  refine (quiet_ensureText _ _ value).bind fun text => (quiet_lift _).bind fun found => ?_
  -- Looking up itself prints nothing, so only what follows could.
  cases found with
  | none => exact unknown
  | some face => exact known face

/-- A face is read off its tag without being shown. -/
theorem FaceTag.quiet_read (tag : FaceTag) : (read tag).Quiet := by
  have warned : ∀ named : Value, (do
      let shown ← named.shown
      Reported.warn ("Unknown dice face '" ++ shown ++ "'")
      return none : Reported (Option Face)).Quiet := fun _ =>
    (quiet_lift _).bind fun _ => (quiet_warn _).bind fun _ => quiet_pure _
  cases tag with
  | face known => exact quiet_pure _
  | value given =>
    -- A whole number is written before the look, and every other value is taken as it is.
    cases given with
    | whole sides =>
      exact ((quiet_write sides).map _).bind fun named =>
        quiet_look named (warned named) fun _ => quiet_pure _
    | null | truth _ | real _ | text _ | list _ | table _ =>
      exact (quiet_pure _).bind fun named =>
        quiet_look named (warned named) fun _ => quiet_pure _

/-- Faces are read off their tags without being shown. -/
theorem FaceTag.quiet_resolve (tags : List FaceTag) : (resolve tags).Quiet :=
  (quiet_mapM quiet_read tags).bind fun _ => quiet_pure _

/-- Candidates are ranked without being shown. -/
theorem Candidate.quiet_rank (drafts : List Draft) (target : Target) (limit : Value) :
    (rank drafts target limit).Quiet := by
  refine (quiet_ensureWhole _ _ _ _ _).bind fun kept => ?_
  refine (quiet_mapM (fun draft => ?_) drafts).bind fun _ => quiet_pure _
  exact (draft.quiet_read).bind fun reading => quiet_lift _

/-- Candidates are searched without being shown. -/
theorem Generator.quiet_search (target : Target) (available : List FaceTag) (limit : Value) :
    (search target available limit).Quiet := by
  -- Swapped ends and missing faces are warned of, and the ranking is logged.
  have warned : (warnSwapped target).Quiet := by
    unfold warnSwapped
    split
    · exact (quiet_write _).bind fun _ => (quiet_write _).bind fun _ => quiet_warn _
    · exact quiet_pure _
  refine warned.bind fun _ => (FaceTag.quiet_resolve available).bind fun faces => ?_
  split
  · exact (quiet_warn _).bind fun _ => quiet_pure _
  · refine (quiet_lift _).bind fun proposals => (quiet_write _).bind fun low => ?_
    refine (quiet_write _).bind fun high => (quiet_lift _).bind fun used => ?_
    exact (quiet_log _ _ _).bind fun _ => Candidate.quiet_rank _ _ _

/-- The fields of a file are read without being shown. -/
theorem Settings.quiet_fileFields (file : File) : (fileFields file).Quiet := by
  have unread : ∀ text, (do
      Reported.warn text
      return [] : Reported (Entries Value)).Quiet := fun _ =>
    (quiet_warn _).bind fun _ => quiet_pure _
  unfold fileFields
  dsimp only
  -- The name, the bytes, the text and the value of the file may each be at fault.
  split
  · exact quiet_fail _
  · split
    · exact unread _
    · split
      · exact quiet_fail _
      · split
        · exact quiet_pure _
        · exact unread _
        · exact unread _
        · exact quiet_fail _
        · exact quiet_fail _

/-- Fields become settings without being shown. -/
theorem Settings.quiet_settle (fields : Entries Value) : (settle fields).Quiet := by
  unfold settle
  split
  · exact quiet_pure _
  · exact (quiet_warn _).bind fun _ => quiet_pure _
  · exact quiet_fail _

/-- Settings are loaded without being shown. -/
theorem Settings.quiet_load (file : Option File) (overrides : Entries Value) :
    (load file overrides).Quiet := by
  -- An override that names the file stops the load at once.
  cases taken : overrides.find? fileArgument with
  | some value =>
    simp only [load, taken, Option.isSome_some, if_true]
    exact quiet_fail _
  | none =>
    rw [load_of_free taken]
    refine Reported.Quiet.bind ?_ fun fields => quiet_settle _
    cases file with
    | none => exact quiet_pure _
    | some file => exact quiet_fileFields file

namespace Session

/-- In front of a step that shows nothing, all that is shown is what the first step shows. -/
theorem printed_bind_quiet {first : Session σ α} {next : α → Session σ β}
    (quiet : ∀ value, (next value).Quiet) (state : σ) :
    Notice.printed ((first >>= next) state).1.notices = Notice.printed (first state).1.notices := by
  simp only [Bind.bind]
  -- A failure of the first step leaves its notices alone.
  rcases first state with ⟨⟨notices, failure | value⟩, between⟩
  · rfl
  · show Notice.printed (notices ++ (next value between).1.notices) = Notice.printed notices
    rw [Notice.printed_append, quiet value between, List.append_nil]

end Session

namespace CommandLine

/-- The source that a run starts from: that of its seed, when it has one. -/
def startOf (seed : Choice Int) (dice : Dice) : Dice :=
  match seed with
  | .made seed => Dice.ofSeed seed
  | _ => dice

/-- The settings of a command line are loaded without being shown. -/
theorem quiet_settings (arguments : Arguments) (file : Option Settings.File) :
    (CommandLine.settings arguments file).Quiet := by
  unfold CommandLine.settings
  split
  · exact quiet_fail _
  · exact Settings.quiet_load _ _

/-- A run whose settings are loaded shows what its command shows, drawing from the source of its
seed. -/
theorem run_printed {arguments : Arguments} {file : Option Settings.File} {settings : Settings}
    (loaded : (CommandLine.settings arguments file).result = .ok settings)
    (seed : arguments.seed ≠ .nothing) (catalog : Catalog) (lines : List (Option Text))
    (dice : Dice) :
    Notice.printed (run arguments file catalog lines dice).1.notices =
      Notice.printed (perform arguments.command settings catalog lines
        (startOf arguments.seed dice)).1.notices := by
  have logged : (Reported.log .info ("Running '" ++ arguments.command.name ++ "'")
      [("locale", .text settings.locale)]).result = .ok () := rfl
  rw [run, Session.printed_lift_bind (quiet_settings arguments file) loaded,
    Session.printed_lift_bind (quiet_log _ _ _) logged,
    Session.printed_bind_quiet fun _ => Session.quiet_pure _]
  -- The seed changes what the command draws from and shows nothing.
  cases chosen : arguments.seed with
  | missing => rfl
  | nothing => exact absurd chosen seed
  | made value => rfl

end CommandLine

end DiceLab
