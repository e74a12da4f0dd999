import DiceLab.Proofs.Binary64.Order
import DiceLab.Proofs.Report
import DiceLab.Settings

/-! Settings that pass their check, or take the place of some that do not, keep within their bounds. -/

namespace DiceLab

namespace Checked

variable {α β : Type}

/-- A check goes on behind a value that passed. -/
theorem andThen_eq_ok {first : Checked α} {next : α → Checked β} {value : β} :
    first.andThen next = .ok value ↔ ∃ middle, first = .ok middle ∧ next middle = .ok value := by
  cases first with
  | ok middle => simp [andThen]
  | faulty faults => simp [andThen]

/-- A function is applied when it and what it is applied to have passed. -/
theorem seq_eq_ok {first : Checked (α → β)} {second : Checked α} {value : β} :
    (first <*> second) = .ok value ↔
      ∃ function argument, first = .ok function ∧ second = .ok argument ∧
        function argument = value := by
  show apply first second = .ok value ↔ _
  -- A faulty side leaves the whole faulty, whichever one it is.
  cases first with
  | ok function =>
    cases second with
    | ok argument => simp [apply]
    | faulty faults => simp [apply]
  | faulty faults =>
    cases second with
    | ok argument => simp [apply]
    | faulty others => simp [apply]

/-- A function is applied to what has passed. -/
theorem map_eq_ok {function : α → β} {second : Checked α} {value : β} :
    (function <$> second) = .ok value ↔ ∃ argument, second = .ok argument ∧
      function argument = value := by
  show apply (.ok function) second = .ok value ↔ _
  cases second with
  | ok argument => simp [apply]
  | faulty faults => simp [apply]

/-- A part passes as it would on its own. -/
theorem inside_eq_ok {step : String} {part : Checked α} {value : α} :
    part.inside step = .ok value ↔ part = .ok value := by
  cases part with
  | ok given => simp [inside]
  | faulty faults => simp [inside]

end Checked

namespace Schema

variable {α : Type}

/-- A value passes when no fault is found in it. -/
theorem passing_eq_ok {found : α → Option FaultKind} {given value : α} :
    passing found given = .ok value ↔ found given = none ∧ given = value := by
  unfold passing
  split
  · rename_i none
    simp [none]
  · rename_i kind some
    simp [some, Checked.fault]

/-- A field that may be missing has its default or what its check made of it. -/
theorem of_optional_eq_ok {name : String} {default value : α} {check : Value → Checked α}
    {fields : Entries Value} (ok : optional name default check fields = .ok value) :
    value = default ∨ ∃ given, check given = .ok value := by
  unfold optional at ok
  split at ok
  · rename_i given found
    -- A field that is given is checked, and one that is missing has its default.
    exact .inr ⟨given, Checked.inside_eq_ok.mp ok⟩
  · cases ok
    exact .inl rfl

/-- A whole number without a fault lies within its bounds. -/
theorem le_of_between (high : Option Int) {low number : Int}
    (none : between (.whole low) (high.map Number.whole) (.whole number) = none) :
    low ≤ number ∧ ∀ bound, high = some bound → number ≤ bound := by
  unfold between at none
  split at none
  · cases none
  · rename_i within
    split at none
    · cases none
    · rename_i above
      -- The lower bound is compared only when the upper one is kept.
      rw [Number.le_whole, Bool.not_eq_true', decide_eq_false_iff_not, not_not] at above
      refine ⟨above, ?_⟩
      rintro bound rfl
      simpa [Number.le_whole] using within

end Schema

namespace Settings

/-- Settings within their bounds. -/
structure Valid (settings : Settings) : Prop where
  rolls : 1 ≤ settings.simulationCount ∧ settings.simulationCount ≤ mostTrials
  candidates : 1 ≤ settings.maxCandidates

/-- The settings that are used unless others are given are within their bounds. -/
theorem valid_default : Valid {} := ⟨by decide, by decide⟩

/-- Settings that pass their check are within their bounds. -/
theorem valid_of_ofFields {fields : Entries Value} {settings : Settings}
    (ok : ofFields fields = .ok settings) : settings.Valid := by
  unfold ofFields at ok
  simp only [Checked.seq_eq_ok, Checked.map_eq_ok] at ok
  -- Each field was left out or passed its own check.
  obtain ⟨_, level, ⟨_, locale, ⟨_, faces, ⟨_, limit, ⟨count, counted, rfl⟩, limited, rfl⟩, -, rfl⟩,
    -, rfl⟩, -, rfl⟩ := ok
  constructor
  · show 1 ≤ count ∧ count ≤ mostTrials
    rcases Schema.of_optional_eq_ok counted with rfl | ⟨given, passed⟩
    · exact valid_default.rolls
    · obtain ⟨whole, -, passed⟩ := Checked.andThen_eq_ok.mp passed
      obtain ⟨passes, rfl⟩ := Schema.passing_eq_ok.mp passed
      obtain ⟨low, high⟩ := Schema.le_of_between (some mostTrials) passes
      exact ⟨low, high mostTrials rfl⟩
  · show 1 ≤ limit
    rcases Schema.of_optional_eq_ok limited with rfl | ⟨given, passed⟩
    · exact valid_default.candidates
    · obtain ⟨whole, -, passed⟩ := Checked.andThen_eq_ok.mp passed
      obtain ⟨passes, rfl⟩ := Schema.passing_eq_ok.mp passed
      exact (Schema.le_of_between none passes).1

end Settings

end DiceLab
