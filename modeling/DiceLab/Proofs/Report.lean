import DiceLab.Report
import Mathlib.Control.Monad.Basic
import Mathlib.Data.List.Forall2

/-! Results and warnings of reported computations, read off their steps. -/

namespace DiceLab

/-- Two steps give a value exactly when the first gives one from which the second gives it. -/
theorem bind_eq_ok {ε α β : Type} {first : Except ε α} {next : α → Except ε β} {value : β} :
    (first >>= next) = .ok value ↔ ∃ middle, first = .ok middle ∧ next middle = .ok value := by
  -- A failure of the first step is the failure of both.
  cases first with
  | error failure => simp [Bind.bind, Except.bind]
  | ok middle => simp [Bind.bind, Except.bind]

/-- Two steps fail with what the first of them to fail fails with. -/
theorem bind_eq_error {ε α β : Type} {first : Except ε α} {next : α → Except ε β} {failure : ε} :
    (first >>= next) = .error failure ↔
      first = .error failure ∨ ∃ middle, first = .ok middle ∧ next middle = .error failure := by
  cases first with
  | error other => simp [Bind.bind, Except.bind]
  | ok middle => simp [Bind.bind, Except.bind]

/-- A result that stands or falls with each of its steps. -/
theorem exists_bind_eq_ok {ε α β : Type} {first : Except ε α} {next : α → Except ε β}
    {stands : Prop} (behind : ∀ middle, first = .ok middle →
      ((∃ value, next middle = .ok value) ↔ stands)) :
    (∃ value, (first >>= next) = .ok value) ↔ (∃ middle, first = .ok middle) ∧ stands := by
  -- The next step is looked at only behind a first one that gave a value.
  simp only [bind_eq_ok]
  constructor
  · rintro ⟨value, middle, ok, made⟩
    exact ⟨⟨middle, ok⟩, (behind middle ok).mp ⟨value, made⟩⟩
  · rintro ⟨⟨middle, ok⟩, holds⟩
    obtain ⟨value, made⟩ := (behind middle ok).mpr holds
    exact ⟨value, middle, ok, made⟩

/-- Whether there is a result does not hang on what is made of it in the end. -/
theorem exists_bind_pure_eq_ok {ε α β : Type} {first : Except ε α} {make : α → β} :
    (∃ made, (do return make (← first)) = Except.ok made) ↔ ∃ value, first = .ok value := by
  cases first with
  | error failure => simp [Bind.bind, Except.bind]
  | ok value => simp [Bind.bind, Except.bind, pure, Except.pure]

/-- Making something of a value fails only when the value is missing. -/
theorem bind_pure_eq_error {ε α β : Type} {first : Except ε α} {make : α → β} {failure : ε} :
    (do return make (← first)) = Except.error failure ↔ first = .error failure := by
  cases first with
  | error other => simp [Bind.bind, Except.bind]
  | ok value => simp [Bind.bind, Except.bind, pure, Except.pure]

/-- A walk fails as one of its steps does. -/
theorem exists_of_mapM_eq_error {α β : Type} {step : α → Except Failure β} {items : List α}
    {failure : Failure} (failed : items.mapM step = .error failure) :
    ∃ item ∈ items, step item = .error failure := by
  induction items with
  | nil => simp [pure, Except.pure] at failed
  | cons item rest ih =>
    simp only [List.mapM_cons, bind_eq_error] at failed
    -- Putting the first value in front of the others never fails.
    rcases failed with first | ⟨value, -, others | ⟨values, -, made⟩⟩
    · exact ⟨item, List.mem_cons_self, first⟩
    · obtain ⟨other, inside, stepFailed⟩ := ih others
      exact ⟨other, List.mem_cons_of_mem _ inside, stepFailed⟩
    · cases made

/-- A walk whose steps all give a value gives a list of values. -/
theorem exists_mapM_eq_ok {α β : Type} (step : α → Except Failure β) {items : List α}
    (each : ∀ item ∈ items, ∃ value, step item = .ok value) :
    ∃ values, items.mapM step = .ok values := by
  -- The walk stops at the first failure, and there is none.
  induction items with
  | nil => exact ⟨[], rfl⟩
  | cons item rest ih =>
    simp only [List.mem_cons, forall_eq_or_imp] at each
    obtain ⟨value, first⟩ := each.1
    obtain ⟨values, others⟩ := ih each.2
    rw [List.mapM_cons, first, others]
    exact ⟨value :: values, rfl⟩

/-- A walk gives the values that its steps give, item by item. -/
theorem mapM_eq_ok {α β : Type} {step : α → Except Failure β} {items : List α} {values : List β} :
    items.mapM step = .ok values ↔
      List.Forall₂ (fun item value => step item = .ok value) items values := by
  induction items generalizing values with
  | nil => simp [pure, Except.pure, eq_comm]
  | cons item rest ih =>
    -- The first step gives the first value, and the walk goes on behind both.
    simp only [List.mapM_cons, bind_eq_ok, ih, List.forall₂_cons_left_iff]
    constructor
    · rintro ⟨value, first, others, walked, made⟩
      exact ⟨value, others, first, walked, (Except.ok.inj made).symm⟩
    · rintro ⟨value, others, first, walked, rfl⟩
      exact ⟨value, first, others, walked, rfl⟩

/-- A walk whose steps are known gives the list of what they give. -/
theorem mapM_eq_ok_map {α β : Type} {step : α → Except Failure β} {made : α → β} {items : List α}
    (each : ∀ item ∈ items, step item = .ok (made item)) :
    items.mapM step = .ok (items.map made) := by
  rw [mapM_eq_ok, List.forall₂_map_right_iff, List.forall₂_same]
  exact each

/-- Each item of the first of two lists that are related item by item has a partner. -/
theorem exists_of_mem_left {α β : Type} {relation : α → β → Prop} {items : List α}
    {values : List β} (related : List.Forall₂ relation items values) {item : α}
    (member : item ∈ items) : ∃ value ∈ values, relation item value := by
  induction related with
  | nil => simp at member
  | cons first _ ih =>
    -- The first items are partners, and others have theirs behind these.
    rcases List.mem_cons.mp member with rfl | later
    · exact ⟨_, List.mem_cons_self, first⟩
    · obtain ⟨value, inside, holds⟩ := ih later
      exact ⟨value, List.mem_cons_of_mem _ inside, holds⟩

/-- A walk gives values exactly when each of its steps gives one. -/
theorem exists_mapM_eq_ok_iff {α β : Type} {step : α → Except Failure β} {items : List α} :
    (∃ values, items.mapM step = .ok values) ↔ ∀ item ∈ items, ∃ value, step item = .ok value := by
  refine ⟨?_, exists_mapM_eq_ok step⟩
  rintro ⟨values, walked⟩ item member
  obtain ⟨value, -, given⟩ := exists_of_mem_left (mapM_eq_ok.mp walked) member
  exact ⟨value, given⟩

/-- The values of a walk are those that one of its steps gives. -/
theorem mem_mapM_eq_ok {α β : Type} {step : α → Except Failure β} {items : List α}
    {values : List β} (ok : items.mapM step = .ok values) {value : β} :
    value ∈ values ↔ ∃ item ∈ items, step item = .ok value := by
  have related := mapM_eq_ok.mp ok
  constructor
  · intro member
    have turned : List.Forall₂ (fun value item => step item = .ok value) values items :=
      List.Forall₂.flip related
    exact exists_of_mem_left turned member
  · rintro ⟨item, member, given⟩
    -- A step gives one value only.
    obtain ⟨other, inside, otherGiven⟩ := exists_of_mem_left related member
    rw [given, Except.ok.injEq] at otherGiven
    rw [otherGiven]
    exact inside

/-- A message can be put together when every value of its context can be written. -/
theorem exists_withContext_eq_ok (message : Text) {context : List (Text × Value)}
    (written : ∀ field ∈ context, ∃ shown, field.2.quoted = .ok shown) :
    ∃ text, withContext message context = .ok text := by
  rw [withContext]
  split
  · exact ⟨message, rfl⟩
  · -- Each field is its name and its value, and only the value can fail to be written.
    obtain ⟨fields, walked⟩ := exists_mapM_eq_ok
      (fun (field : Text × Value) => do
        let shown ← field.2.quoted
        return field.1 ++ "=" ++ shown)
      (fun field member => by
        obtain ⟨shown, quoted⟩ := written field member
        rw [quoted]
        exact ⟨_, rfl⟩)
    simp only [walked]
    exact ⟨_, rfl⟩

namespace Reported

variable {α β : Type}

/-- A result carried over from a plain computation is kept. -/
@[simp] theorem lift_result (result : Except Failure α) :
    (liftM result : Reported α).result = result := rfl

/-- Noticing one thing always succeeds. -/
@[simp] theorem note_result (notice : Notice) : (note notice).result = .ok () := rfl

/-- The results of two steps follow each other as the steps do. -/
@[simp] theorem bind_result (first : Reported α) (next : α → Reported β) :
    (first >>= next).result = first.result >>= fun value => (next value).result := by
  -- Notices never reach the result, so only the outcome of the first step matters.
  rcases first with ⟨notices, failure | value⟩
  · rfl
  · rfl

/-- The results of a walk over a list are those of the same walk without notices. -/
theorem mapM_result (step : α → Reported β) (items : List α) :
    (items.mapM step).result = items.mapM fun item => (step item).result := by
  -- Each item adds one step in front of the walk over the items behind it.
  induction items with
  | nil => rfl
  | cons item rest ih => simp only [List.mapM_cons, bind_result, ih, pure_result]; rfl

/-- A walk that succeeds notices what each of its steps notices, in order. -/
theorem mapM_notices {step : α → Reported β} {items : List α} {values : List β}
    (ok : (items.mapM step).result = .ok values) :
    (items.mapM step).notices = items.flatMap fun item => (step item).notices := by
  induction items generalizing values with
  | nil => rfl
  | cons item rest ih =>
    -- Success of the whole walk means success of the first step and of the rest.
    simp only [List.mapM_cons, bind_result] at ok
    obtain ⟨value, first, ok⟩ := bind_eq_ok.mp ok
    obtain ⟨others, behind, ok⟩ := bind_eq_ok.mp ok
    rw [List.mapM_cons, bind_of_ok _ first, bind_of_ok _ behind]
    simp [ih behind]

/-- Logging succeeds when every value of the context can be written. -/
theorem log_result {severity : Severity} {message : Text} {context : List (Text × Value)}
    (written : ∀ field ∈ context, ∃ shown, field.2.quoted = .ok shown) :
    (log severity message context).result = .ok () := by
  -- Putting the message together is the only step that can fail.
  obtain ⟨text, made⟩ := exists_withContext_eq_ok message written
  simp only [log, bind_result, lift_result, made, note_result]
  rfl

end Reported

namespace Session

variable {σ α β : Type}

/-- A computation started in a state succeeds with a value and leaves a state behind. -/
def Ends (action : Session σ α) (state : σ) (value : α) (last : σ) : Prop :=
  (action state).1.result = .ok value ∧ (action state).2 = last

/-- Two steps end where the second ends after the first. -/
theorem bind_ends {first : Session σ α} {next : α → Session σ β} {state last : σ} {value : β} :
    (first >>= next).Ends state value last ↔
      ∃ middle between,
        first.Ends state middle between ∧ (next middle).Ends between value last := by
  simp only [Ends, Bind.bind]
  -- A failure of the first step ends both, so only its success leads on.
  rcases first state with ⟨⟨notices, failure | middle⟩, between⟩
  · simp
  · constructor
    · exact fun ends => ⟨middle, between, ⟨rfl, rfl⟩, ends⟩
    · rintro ⟨_, _, ⟨same, rfl⟩, ends⟩
      obtain rfl := Except.ok.inj same
      exact ends

/-- Behind a step that succeeds, the next one goes on in the state that is left, and its notices follow
those of the step. -/
theorem bind_of_eq {first : Session σ α} (next : α → Session σ β) {state between : σ} {middle : α}
    {before : List Notice} (ok : first state = (⟨before, .ok middle⟩, between)) :
    (first >>= next) state =
      (⟨before ++ (next middle between).1.notices, (next middle between).1.result⟩,
        (next middle between).2) := by
  simp only [Bind.bind, ok]

/-- Behind a step that succeeds, the next one decides the result and leaves its state behind. -/
theorem bind_of_ends {first : Session σ α} {next : α → Session σ β} {state between : σ} {middle : α}
    (ends : first.Ends state middle between) :
    ((first >>= next) state).1.result = (next middle between).1.result ∧
      ((first >>= next) state).2 = (next middle between).2 := by
  obtain ⟨ok, left⟩ := ends
  simp only [Bind.bind]
  revert ok left
  -- The first step has ended, so it has a value and leaves the state that is named.
  rcases first state with ⟨⟨notices, failure | value⟩, last⟩
  · intro failed
    cases failed
  · intro ok left
    obtain rfl := Except.ok.inj ok
    subst left
    exact ⟨rfl, rfl⟩

/-- A report ends with its result and leaves the state alone. -/
theorem lift_ends {report : Reported α} {state last : σ} {value : α} :
    (liftM report : Session σ α).Ends state value last ↔
      report.result = .ok value ∧ state = last := Iff.rfl

/-- A plain result ends with itself and leaves the state alone. -/
theorem lift_result_ends {result : Except Failure α} {state last : σ} {value : α} :
    (liftM result : Session σ α).Ends state value last ↔ result = .ok value ∧ state = last :=
  Iff.rfl

/-- A step on the state ends with what it gives. -/
theorem ofState_ends {step : σ → α × σ} {state last : σ} {value : α} :
    (ofState step).Ends state value last ↔ step state = (value, last) := by
  simp [Ends, ofState, Prod.ext_iff]

/-- A value ends with itself and leaves the state alone. -/
theorem pure_ends {given value : α} {state last : σ} :
    (pure given : Session σ α).Ends state value last ↔ given = value ∧ state = last := by
  simp [Ends, pure]

end Session

namespace Notice

/-- The warnings of notices that follow others follow the warnings of those. -/
@[simp] theorem warnings_append (first second : List Notice) :
    warnings (first ++ second) = warnings first ++ warnings second :=
  List.filterMap_append

end Notice

end DiceLab
