import DiceLab.Catalog
import DiceLab.Proofs.Coercion

/-! Computations that may warn and log on their way and show nothing. -/

namespace DiceLab

variable {α β σ : Type}

/-- The items of notices that follow others follow the items of those. -/
@[simp] theorem Notice.printed_append (first second : List Notice) :
    printed (first ++ second) = printed first ++ printed second :=
  List.filterMap_append

namespace Reported

/-- A computation shows nothing, whether it fails or not. -/
def Quiet (report : Reported α) : Prop := Notice.printed report.notices = []

/-- Two steps show nothing when neither of them does. -/
theorem Quiet.bind {first : Reported α} {next : α → Reported β} (quiet : first.Quiet)
    (behind : ∀ value, (next value).Quiet) : (first >>= next).Quiet := by
  cases result : first.result with
  -- What comes behind a failure is not done at all.
  | error failure =>
    rw [bind_of_error next result]
    exact quiet
  | ok value =>
    rw [bind_of_ok next result, Quiet, Notice.printed_append, quiet, behind value]
    rfl

/-- A value shows nothing. -/
theorem quiet_pure (value : α) : (pure value : Reported α).Quiet := rfl

/-- A plain result shows nothing. -/
theorem quiet_lift (result : Except Failure α) : (liftM result : Reported α).Quiet := rfl

/-- A warning is not shown. -/
theorem quiet_warn (text : Text) : (warn text).Quiet := rfl

/-- A log record is not shown. -/
theorem quiet_log (severity : Severity) (message : Text) (context : List (Text × Value)) :
    (log severity message context).Quiet :=
  (quiet_lift _).bind fun _ => rfl

end Reported

namespace Session

/-- A computation on a state shows nothing, whatever the state is. -/
def Quiet (action : Session σ α) : Prop := ∀ state, (action state).1.Quiet

/-- Behind a step that shows nothing, all that is shown is what the next one shows. -/
theorem printed_bind {first : Session σ α} {next : α → Session σ β} {state between : σ} {middle : α}
    (quiet : first.Quiet) (ends : first.Ends state middle between) :
    Notice.printed ((first >>= next) state).1.notices =
      Notice.printed (next middle between).1.notices := by
  obtain ⟨ok, left⟩ := ends
  -- The first step is known apart from its notices, none of which is printed.
  have known : first state = (⟨(first state).1.notices, .ok middle⟩, between) := by
    rw [← ok, ← left]
  rw [bind_of_eq next known, Notice.printed_append, quiet state, List.nil_append]

/-- Behind a report that shows nothing, all that is shown is what the next step shows. -/
theorem printed_lift_bind {report : Reported α} {next : α → Session σ β} {value : α}
    (quiet : report.Quiet) (ok : report.result = .ok value) (state : σ) :
    Notice.printed (((liftM report : Session σ α) >>= next) state).1.notices =
      Notice.printed (next value state).1.notices :=
  printed_bind (fun _ => quiet) ⟨ok, rfl⟩

/-- Two steps show nothing when neither of them does. -/
theorem Quiet.bind {first : Session σ α} {next : α → Session σ β} (quiet : first.Quiet)
    (behind : ∀ value, (next value).Quiet) : (first >>= next).Quiet := by
  intro state
  have before := quiet state
  simp only [Reported.Quiet, Bind.bind] at before ⊢
  revert before
  -- A failure of the first step leaves its notices alone.
  rcases first state with ⟨⟨notices, failure | value⟩, between⟩
  · exact id
  · intro before
    show Notice.printed (notices ++ (next value between).1.notices) = []
    rw [Notice.printed_append, before, behind value between]
    rfl

/-- A report that shows nothing shows nothing in any state. -/
theorem quiet_lift {report : Reported α} (quiet : report.Quiet) :
    (liftM report : Session σ α).Quiet := fun _ => quiet

/-- A plain result shows nothing. -/
theorem quiet_lift_result (result : Except Failure α) : (liftM result : Session σ α).Quiet :=
  fun _ => rfl

/-- A value shows nothing. -/
theorem quiet_pure (value : α) : (pure value : Session σ α).Quiet := fun _ => rfl

/-- A step on the state shows nothing. -/
theorem quiet_ofState (step : σ → α × σ) : (ofState step).Quiet := fun _ => rfl

end Session

open Reported (quiet_pure quiet_lift quiet_warn)

/-- Bringing a value into range shows nothing. -/
theorem quiet_ensureWhole (name : Text) (low : Int) (high default : Option Int) (value : Value) :
    (ensureWhole name low high default value).Quiet := by
  cases corrected : isCorrected value (usedWhole low high default value) with
  | true =>
    rw [ensureWhole_of_corrected corrected]
    rfl
  | false =>
    -- The text of the warning is put together without printing, and a warning is not printed.
    rw [ensureWhole_of_not_corrected corrected]
    exact (quiet_lift _).bind fun _ => (quiet_warn _).bind fun _ => quiet_pure _

/-- A text of the catalog is put together without being shown. -/
theorem Catalog.quiet_render (catalog : Catalog) (key : Text) (wanted : Option Text)
    (options : Entries Value) : (catalog.render key wanted options).Quiet := by
  -- Choosing another locale is only warned of.
  have chosen : (catalog.chooseLocale wanted).Quiet := by
    unfold chooseLocale
    dsimp only
    split
    · exact quiet_pure _
    · exact (quiet_warn _).bind fun _ => quiet_pure _
  refine chosen.bind fun locale => ?_
  split
  · exact quiet_pure _
  · exact (quiet_lift _).bind fun _ => quiet_pure _

end DiceLab
