import DiceLab.Proofs.Report

/-! Computations that give a result and no failure, put together from their steps. -/

namespace DiceLab

variable {α β σ τ : Type}

namespace Reported

/-- A computation gives a result. -/
def Returns (report : Reported α) : Prop := ∃ value, report.result = .ok value

/-- Two steps give a result when the first does and the second does behind it. -/
theorem Returns.bind {first : Reported α} {next : α → Reported β} (starts : first.Returns)
    (behind : ∀ value, first.result = .ok value → (next value).Returns) :
    (first >>= next).Returns := by
  obtain ⟨value, given⟩ := starts
  obtain ⟨last, made⟩ := behind value given
  refine ⟨last, ?_⟩
  -- The second step is only asked for the value that the first one has given.
  rw [bind_result]
  exact bind_eq_ok.mpr ⟨value, given, made⟩

/-- A value is a result. -/
theorem returns_pure (value : α) : (pure value : Reported α).Returns := ⟨value, rfl⟩

/-- Noticing something gives a result. -/
theorem returns_note (notice : Notice) : (note notice).Returns := ⟨(), rfl⟩

/-- A plain result is carried over. -/
theorem returns_lift {result : Except Failure α} (given : ∃ value, result = .ok value) :
    (liftM result : Reported α).Returns := given

/-- A walk gives a result when each of its steps does. -/
theorem returns_mapM {step : α → Reported β} {items : List α}
    (each : ∀ item ∈ items, (step item).Returns) : (items.mapM step).Returns := by
  obtain ⟨values, walked⟩ := exists_mapM_eq_ok (fun item => (step item).result) each
  exact ⟨values, (mapM_result step items).trans walked⟩

end Reported

namespace Session

/-- A computation gives a result when it is started in a state. -/
def Returns (action : Session σ α) (state : σ) : Prop := ∃ value last, action.Ends state value last

variable {first : Session σ α} {next : α → Session σ β} {state between : σ} {middle : α}

/-- Behind a step that ends, a result of the next one is a result of both. -/
theorem Ends.bind (ends : first.Ends state middle between)
    (behind : (next middle).Returns between) : (first >>= next).Returns state := by
  obtain ⟨value, last, made⟩ := behind
  exact ⟨value, last, bind_ends.mpr ⟨middle, between, ends, made⟩⟩

/-- Two steps give a result when the first does and the second does in the state behind it. -/
theorem Returns.bind (starts : first.Returns state)
    (behind : ∀ middle between, first.Ends state middle between → (next middle).Returns between) :
    (first >>= next).Returns state := by
  obtain ⟨middle, between, ends⟩ := starts
  exact ends.bind (behind middle between ends)

/-- A value is a result in every state. -/
theorem returns_pure (value : α) (state : σ) : (pure value : Session σ α).Returns state :=
  ⟨value, state, rfl, rfl⟩

/-- A report that gives a result gives it in every state. -/
theorem returns_lift {report : Reported α} (given : report.Returns) (state : σ) :
    (liftM report : Session σ α).Returns state := by
  obtain ⟨value, result⟩ := given
  exact ⟨value, state, lift_ends.mpr ⟨result, rfl⟩⟩

/-- A report leaves the state to the step behind it. -/
theorem lift_bind {report : Reported α} (given : report.Returns)
    (behind : ∀ value, report.result = .ok value → (next value).Returns state) :
    ((liftM report : Session σ α) >>= next).Returns state := by
  obtain ⟨value, result⟩ := given
  exact (lift_ends.mpr ⟨result, rfl⟩ : (liftM report : Session σ α).Ends state value state).bind
    (behind value result)

/-- A report with a known result leaves the state to the step behind it. -/
theorem lift_known_bind {report : Reported α} (known : report.result = .ok middle)
    (behind : (next middle).Returns state) :
    ((liftM report : Session σ α) >>= next).Returns state :=
  (lift_ends.mpr ⟨known, rfl⟩ : (liftM report : Session σ α).Ends state middle state).bind behind

/-- A plain result leaves the state to the step behind it. -/
theorem lift_result_bind {result : Except Failure α} (known : result = .ok middle)
    (behind : (next middle).Returns state) :
    ((liftM result : Session σ α) >>= next).Returns state :=
  (lift_result_ends.mpr ⟨known, rfl⟩ : (liftM result : Session σ α).Ends state middle state).bind
    behind

/-- A known value leaves nothing to do but the step behind it. -/
theorem lift_ok_bind (value : α) (next : α → Session σ β) :
    ((liftM (Except.ok value : Except Failure α) : Session σ α) >>= next) = next value := rfl

/-- A step on the state always gives a result. -/
theorem returns_ofState (step : σ → α × σ) (state : σ) : (ofState step).Returns state :=
  ⟨_, _, ofState_ends.mpr rfl⟩

/-- A computation on a part of the state gives what it gives on that part alone. -/
theorem on_ends {part : τ → σ} {update : σ → τ → τ} {action : Session σ α} {whole last : τ}
    {value : α} : (on part update action).Ends whole value last ↔
      ∃ rest, action.Ends (part whole) value rest ∧ update rest whole = last := by
  simp [Ends, on, and_assoc]

end Session

end DiceLab
