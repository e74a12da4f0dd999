import DiceLab.Coercion
import DiceLab.Proofs.Decimal.Digits
import DiceLab.Proofs.Report

/-! Whole numbers are held within their bounds, and only numbers too long to be shown fail. -/

namespace DiceLab

/-- A whole number between two bounds is the given one, or the bound it lies beyond. -/
theorem clampWhole_eq (low bound value : Int) :
    clampWhole low (some bound) value = min (max low value) bound := rfl

/-- A whole number held between two bounds is the given one exactly when that is between them. -/
theorem isCorrected_whole (value corrected : Int) :
    isCorrected (.whole value) corrected = (value == corrected) := rfl

/-- A whole number that is not within its bounds becomes one of them. -/
theorem clampWhole_cases (low : Int) (high : Option Int) (value : Int) :
    clampWhole low high value = value ∨ clampWhole low high value = low ∨
      ∃ bound, high = some bound ∧ clampWhole low high value = bound := by
  -- Without an upper bound the value is only raised.
  cases high with
  | none =>
    simp only [clampWhole]
    omega
  | some bound =>
    simp only [clampWhole, Option.some.injEq, exists_eq_left']
    omega

/-- Two plain steps are carried over one by one. -/
theorem Reported.lift_bind {α β : Type} (first : Except Failure α) (next : α → Except Failure β) :
    (liftM (first >>= next) : Reported β) = liftM first >>= fun value => liftM (next value) := by
  cases first with
  | error failure => rfl
  | ok value => rfl

/-- A value that is just given is given when it is carried over, too. -/
theorem Reported.lift_pure {α : Type} (value : α) :
    (liftM (pure value : Except Failure α) : Reported α) = pure value := rfl

/-- The number that is used for a value, whether or not it can be told. -/
def usedWhole (low : Int) (high default : Option Int) (value : Value) : Int :=
  clampWhole low high ((wholeOf? value).getD (default.getD low))

/-- Writes the end of a range. -/
def writeRangeEnd : Option Int → Except Failure Text
  | none => .ok "inf"
  | some bound => Decimal.write bound

/-- Puts a warning about a range together, part by part. -/
def rangeText (name : Text) (low : Int) (high : Option Int) (value : Value) (used : Int) :
    Except Failure Text := do
  let lowText ← Decimal.write low
  let endText ← writeRangeEnd high
  let given ← value.quoted
  let usedText ← Decimal.write used
  return name ++ " must be an integer in [" ++ lowText ++ ", " ++ endText ++ "], got " ++ given ++
    "; using " ++ usedText

section

variable {name : Text} {low : Int} {high default : Option Int} {value : Value}

/-- A value that is the number used for it already is passed on without a word. -/
theorem ensureWhole_of_corrected
    (corrected : isCorrected value (usedWhole low high default value) = true) :
    ensureWhole name low high default value = ⟨[], .ok (usedWhole low high default value)⟩ := by
  rw [usedWhole] at corrected ⊢
  rw [ensureWhole]
  simp only [corrected, Bool.not_true, Bool.false_eq_true, if_false]
  rfl

/-- Any other value is told of before the number is passed on. -/
theorem ensureWhole_of_not_corrected
    (differs : isCorrected value (usedWhole low high default value) = false) :
    ensureWhole name low high default value = (do
      let text ← (rangeText name low high value (usedWhole low high default value) :
        Reported Text)
      Reported.warn text
      return usedWhole low high default value) := by
  rw [usedWhole] at differs ⊢
  rw [ensureWhole]
  simp only [differs, Bool.not_false, if_true]
  generalize clampWhole low high _ = used
  -- The parts are written in the same order on both sides, so the same one is the first to fail.
  simp only [rangeText, Reported.lift_bind, Reported.lift_pure, bind_assoc, pure_bind]
  cases high with
  | none => rfl
  | some bound => rfl

/-- A warning about a range can be put together when its ends, the value and the number used for it can
be written. -/
theorem exists_rangeText_eq_ok {used : Int} :
    (∃ text, rangeText name low high value used = .ok text) ↔
      Decimal.Writable low ∧ (∀ bound, high = some bound → Decimal.Writable bound) ∧
        (∃ given, value.quoted = .ok given) ∧ Decimal.Writable used := by
  have write (number : Int) : (∃ text, Decimal.write number = .ok text) ↔ Decimal.Writable number := by
    simp [Decimal.write_eq_ok]
  have last (make : Text → Text) : (∃ text, (do return make (← Decimal.write used)) =
      Except.ok text) ↔ Decimal.Writable used := by
    rw [exists_bind_pure_eq_ok, write]
  have upper : (∃ text, writeRangeEnd high = .ok text) ↔
      ∀ bound, high = some bound → Decimal.Writable bound := by
    cases high with
    | none => simp [writeRangeEnd]
    | some bound => simp [writeRangeEnd, write]
  rw [rangeText, exists_bind_eq_ok fun _ _ => exists_bind_eq_ok fun _ _ =>
    exists_bind_eq_ok fun _ _ => last _, write, upper]

end

/-- A number held within bounds that can be written can be written, if it can be when it is within
them already. -/
theorem writable_clampWhole {low : Int} {high : Option Int} (lowShort : Decimal.Writable low)
    (highShort : ∀ bound, high = some bound → Decimal.Writable bound) {number : Int}
    (short : clampWhole low high number = number → Decimal.Writable number) :
    Decimal.Writable (clampWhole low high number) := by
  -- What is used is the number or one of its bounds.
  rcases clampWhole_cases low high number with kept | lowest | ⟨bound, isBound, greatest⟩
  · rw [kept]
    exact short kept
  · rwa [lowest]
  · rw [greatest]
    exact highShort bound isBound

/--
A whole number is held within its bounds, and fails only when it is too long to be written.

A number within the bounds is never written, and one beyond them has to stand in the warning.
-/
theorem ensureWhole_whole_eq_ok {name : Text} {low : Int} {high default : Option Int}
    (lowWritable : Decimal.Writable low)
    (highWritable : ∀ bound, high = some bound → Decimal.Writable bound) {value used : Int} :
    (ensureWhole name low high default (.whole value)).result = .ok used ↔
      (value = used ∨ Decimal.Writable value) ∧ used = clampWhole low high value := by
  have held : usedWhole low high default (.whole value) = clampWhole low high value := rfl
  by_cases same : value = clampWhole low high value
  · -- Nothing is warned about, and so nothing is written.
    have corrected : isCorrected (.whole value) (usedWhole low high default (.whole value)) = true := by
      rwa [held, isCorrected_whole, beq_iff_eq]
    rw [ensureWhole_of_corrected corrected, held, Except.ok.injEq]
    constructor
    · intro given
      exact ⟨.inl (same.trans given), given.symm⟩
    · rintro ⟨-, given⟩
      exact given.symm
  · have differs : isCorrected (.whole value) (usedWhole low high default (.whole value)) = false := by
      rwa [held, isCorrected_whole, beq_eq_false_iff_ne]
    -- Every number of the warning but the given one is known to be short.
    have usedWritable : Decimal.Writable (clampWhole low high value) :=
      writable_clampWhole lowWritable highWritable fun kept => absurd kept.symm same
    have shown : (∃ given, (Value.whole value).quoted = .ok given) ↔ Decimal.Writable value := by
      simp [Value.quoted, Decimal.write_eq_ok]
    have told : (∃ text, rangeText name low high (.whole value) (clampWhole low high value) =
        .ok text) ↔ Decimal.Writable value := by
      rw [exists_rangeText_eq_ok, shown]
      exact ⟨fun all => all.2.2.1, fun short => ⟨lowWritable, highWritable, short, usedWritable⟩⟩
    rw [ensureWhole_of_not_corrected differs, held, Reported.bind_result, bind_eq_ok]
    constructor
    · rintro ⟨text, written, made⟩
      exact ⟨.inr (told.mp ⟨text, written⟩), (Except.ok.inj made).symm⟩
    · rintro ⟨within | writable, rfl⟩
      · exact absurd within same
      · obtain ⟨text, written⟩ := told.mpr writable
        exact ⟨text, written, rfl⟩

/--
A whole number is held between two bounds, and fails only when it is too long to be written.

A number within the bounds is as short as these, and one beyond them has to stand in the warning.
-/
theorem ensureWhole_eq_ok {name : Text} {low bound : Int} {default : Option Int}
    (lowWritable : Decimal.Writable low) (boundWritable : Decimal.Writable bound)
    (order : low ≤ bound) {value used : Int} :
    (ensureWhole name low (some bound) default (.whole value)).result = .ok used ↔
      Decimal.Writable value ∧ used = min (max low value) bound := by
  rw [ensureWhole_whole_eq_ok lowWritable (by simpa using boundWritable), clampWhole_eq]
  constructor
  · rintro ⟨rfl | writable, held⟩
    · -- A number that is in range lies between two that can be written.
      exact ⟨lowWritable.between boundWritable (by omega) (by omega), held⟩
    · exact ⟨writable, held⟩
  · rintro ⟨writable, held⟩
    exact ⟨.inr writable, held⟩

/-- Whatever value is given, the number that is used lies within the bounds. -/
theorem ensureWhole_used {name : Text} {low : Int} {high default : Option Int} {value : Value}
    {used : Int} (ok : (ensureWhole name low high default value).result = .ok used) :
    used = clampWhole low high ((wholeOf? value).getD (default.getD low)) := by
  change used = usedWhole low high default value
  cases corrected : isCorrected value (usedWhole low high default value) with
  | true =>
    rw [ensureWhole_of_corrected corrected] at ok
    exact (Except.ok.inj ok).symm
  | false =>
    -- The warning is put together on the way, and the number is given behind it.
    rw [ensureWhole_of_not_corrected corrected] at ok
    simp only [Reported.bind_result, bind_eq_ok] at ok
    obtain ⟨text, -, _, -, made⟩ := ok
    exact (Except.ok.inj made).symm

end DiceLab
