import DiceLab.Proofs.Batch
import DiceLab.Proofs.Binary64.Nearest
import DiceLab.Proofs.Binary64.Overflow
import DiceLab.Proofs.Distribution
import Mathlib.Algebra.Order.Field.Basic
import Mathlib.Tactic.Linarith

/-! Rolls bring the number of runs into range; the weight of an exact histogram is what is given. -/

namespace DiceLab

open Binary64 (scale reach Rounds)

namespace Number

variable {value : Binary64}

/-- A nonnegative value is not below zero. -/
theorem zero_le_real (nonnegative : value.Nonnegative) :
    (Number.whole 0).le (.real value) = true := by
  cases nonnegative with
  -- The upper end is above every whole number, and other values without a minus count units.
  | infinite => rfl
  | finite magnitude =>
    simp only [le, position?, Binary64.position?, Binary64.signed, Position.before, Int.zero_mul,
      Bool.false_eq_true, if_false, Bool.not_eq_true', decide_eq_false_iff_not]
    omega

/-- A value that is a number below zero is below zero. -/
theorem real_lt_zero {number : ℚ} (is : value.Is number) (below : number < 0) :
    (Number.real value).lt (.whole 0) = true := by
  obtain ⟨units, known, equal⟩ := is
  -- Below zero there is at least one unit with a minus.
  have negative : units < 0 := by
    have scaled : (units : ℚ) < 0 := by
      rw [← equal]
      exact mul_neg_of_neg_of_pos below Binary64.scale_pos
    exact_mod_cast scaled
  simp only [lt, position?, known, Position.before, Int.zero_mul, decide_eq_true_eq]
  exact negative

end Number

section Shares

variable {weight other : Int} {count : Nat} {share otherShare : Binary64}

/-- A share of a weight that is no less than zero is nonnegative. -/
theorem nonnegative_of_wholeQuotient (above : 0 ≤ weight)
    (ok : wholeQuotient weight count = .ok share) : share.Nonnegative := by
  -- Neither the weight nor the number of values has a minus.
  have sign : (decide (weight < 0) != decide ((count : Int) < 0)) = false := by
    have noMinus : ¬weight < 0 := by omega
    simp [noMinus]
  rw [wholeQuotient, sign] at ok
  rw [← Binary64.eq_of_finiteOr ok]
  exact Binary64.nonnegative_ofUnits _ _

/-- A share among not too many is what the exact share is rounded to. -/
theorem exists_rounds_of_wholeQuotient (positive : 0 < count) (normal : twoTo 52 * count ≤ scale)
    (ok : wholeQuotient weight count = .ok share) :
    ∃ number, Rounds ((weight : ℚ) / (count : Int)) share number := by
  have divisor : (0 : Int) < count := by omega
  -- A quotient that was found lies below the bound, and so it was rounded.
  have below := (exists_wholeQuotient_eq_ok divisor.ne').mp ⟨share, ok⟩
  have size : |(weight : ℚ) / (count : Int)| < reach := by
    rw [Int.natAbs_natCast] at below
    have known : (0 : ℚ) < count := Nat.cast_pos.mpr positive
    rw [Int.cast_natCast, abs_div, abs_of_pos known, div_lt_iff₀ known, abs_intCast]
    exact_mod_cast below
  obtain ⟨value, number, known, rounds⟩ := rounds_wholeQuotient divisor size normal
  rw [ok] at known
  obtain rfl := Except.ok.inj known
  exact ⟨number, rounds⟩

/-- Weights far enough apart have shares in the same order. -/
theorem shares_lt (positive : 0 < count) (normal : twoTo 52 * count ≤ scale)
    (apart : (weight.natAbs + other.natAbs : Int) < (other - weight) * (twoTo 53 : Nat))
    (ok : wholeQuotient weight count = .ok share)
    (otherOk : wholeQuotient other count = .ok otherShare) :
    ∃ number otherNumber : ℚ, share.Is number ∧ otherShare.Is otherNumber ∧
      number < otherNumber := by
  obtain ⟨number, rounds⟩ := exists_rounds_of_wholeQuotient positive normal ok
  obtain ⟨otherNumber, otherRounds⟩ := exists_rounds_of_wholeQuotient positive normal otherOk
  refine ⟨number, otherNumber, rounds.is, otherRounds.is, rounds.lt otherRounds ?_⟩
  -- The distance and the sizes are divided by the same count.
  have known : (0 : ℚ) < (count : Int) := by exact_mod_cast positive
  rw [abs_div, abs_div, abs_of_pos known, ← add_div, ← sub_div, div_mul_eq_mul_div]
  apply div_lt_div_of_pos_right _ known
  rw [← Int.cast_abs, ← Int.cast_abs, Int.abs_eq_natAbs, Int.abs_eq_natAbs]
  exact_mod_cast apart

end Shares

namespace Formula

variable {formula : Formula} {term : Term} {weight other : Int} {histogram : Histogram}

/-- The entries of a lone die all have its share. -/
theorem exists_share (lone : formula.IsLone term)
    (exact : formula.exactDistribution (.whole weight) = .ok histogram) :
    ∃ share, wholeQuotient weight term.face.count = .ok share ∧
      ∀ entry ∈ histogram, entry.2 = .real share := by
  obtain ⟨share, divided, rfl⟩ := (exactDistribution_of_lone lone).mp exact
  refine ⟨share, divided, ?_⟩
  intro entry member
  obtain ⟨total, -, rfl⟩ := List.mem_map.mp member
  rfl

/-- Weights with one histogram have one share. -/
theorem exists_share_of_same (lone : formula.IsLone term)
    (exact : formula.exactDistribution (.whole weight) = .ok histogram)
    (otherExact : formula.exactDistribution (.whole other) = .ok histogram) :
    ∃ share, wholeQuotient weight term.face.count = .ok share ∧
      wholeQuotient other term.face.count = .ok share := by
  obtain ⟨share, divided, shares⟩ := exists_share lone exact
  obtain ⟨otherShare, otherDivided, otherShares⟩ := exists_share lone otherExact
  -- The histogram has an entry, which has both shares.
  obtain ⟨entry, member⟩ := List.exists_mem_of_ne_nil _
    ((exactDistribution_ne_nil_iff exact).mpr ⟨term, lone⟩)
  obtain rfl := Number.real.inj ((shares entry member).symm.trans (otherShares entry member))
  exact ⟨share, divided, otherDivided⟩

end Formula

section Runs

variable {σ : Type} {draw : Face → σ → Int × σ} {reading : Reading} {term : Term} {runs : Int}
  {state last : σ} {histogram : Histogram}

/-- The histogram of a lone die is the exact one, and nothing is drawn for it. -/
theorem distributionFrom_ends_of_lone (lone : reading.formula.IsLone term) :
    (distributionFrom draw reading (.whole runs)).Ends state histogram last ↔
      reading.formula.exactDistribution (.whole runs) = .ok histogram ∧ state = last := by
  cases exact : reading.formula.exactDistribution (.whole runs) with
  | error failure =>
    -- A weight that cannot be divided fails before anything else is done.
    simp only [distributionFrom, Formula.exactFor_whole, exact, Session.bind_ends,
      Session.lift_result_ends, reduceCtorEq, false_and, exists_false]
  | ok shown =>
    rw [Session.Ends, distributionFrom_of_lone lone exact]

/-- The histogram of anything else is that of as many rolls as are made for the runs. -/
theorem distributionFrom_ends_of_several (several : ¬∃ term, reading.formula.IsLone term) :
    (distributionFrom draw reading (.whole runs)).Ends state histogram last ↔
      (reading.formula.Writable ∧ Decimal.Writable runs) ∧ ∃ counts,
        reading.formula.rollHistogram draw (rollsFor runs) state = (counts, last) ∧
          Histogram.ofCounts counts = histogram := by
  -- Several dice are rolled as a batch, whose counts are turned into a histogram.
  simp only [distributionFrom_of_several several, Session.bind_ends, batchFrom_ends,
    Session.pure_ends]
  constructor
  · rintro ⟨counts, _, ⟨writable, runsWritable, rolled⟩, made, rfl⟩
    exact ⟨⟨writable, runsWritable⟩, counts, rolled, made⟩
  · rintro ⟨⟨writable, runsWritable⟩, counts, rolled, made⟩
    exact ⟨counts, last, ⟨writable, runsWritable, rolled⟩, made, rfl⟩

/-- A number of runs is brought into range once and for all. -/
theorem rollsFor_clamped (runs : Int) : rollsFor (min (max 0 runs) mostTrials) = rollsFor runs := by
  have order : 0 ≤ mostTrials := by decide
  rw [rollsFor, rollsFor]
  omega

/-- A number of runs gives the histogram that the nearest number in range gives, and leaves the
source behind as that does. -/
def RunsHeld (source : Source σ) (reading : Reading) (runs : Int) (state : σ) : Prop :=
  ∀ histogram last, (distributionFrom source.draw reading (.whole runs)).Ends state histogram last ↔
    (distributionFrom source.draw reading (.whole (min (max 0 runs) mostTrials))).Ends state
      histogram last

variable {source : Source σ}

/-- Numbers of runs in range are left alone. -/
theorem runsHeld_of_between (above : 0 ≤ runs) (below : runs ≤ mostTrials) :
    RunsHeld source reading runs state := by
  have same : min (max 0 runs) mostTrials = runs := by omega
  intro histogram last
  rw [same]

/-- Where rolls are made, every number of runs that can be written is brought into range. -/
theorem runsHeld_iff_of_several (several : ¬∃ term, reading.formula.IsLone term) :
    RunsHeld source reading runs state ↔ (reading.formula.Writable → Decimal.Writable runs) := by
  have order : 0 ≤ mostTrials := by decide
  have clamped : Decimal.Writable (min (max 0 runs) mostTrials) :=
    writable_of_le_mostTrials (by omega) (by omega)
  simp only [RunsHeld, distributionFrom_ends_of_several several, rollsFor_clamped, clamped, and_true]
  constructor
  · intro held writable
    -- In range the rolls give a histogram, so they have to give it for these runs as well.
    exact ((held _ _).mpr ⟨writable, _, rfl, rfl⟩).1.2
  · intro known histogram last
    constructor
    · rintro ⟨⟨writable, -⟩, rolled⟩
      exact ⟨writable, rolled⟩
    · rintro ⟨writable, rolled⟩
      exact ⟨⟨writable, known writable⟩, rolled⟩

/-- Counts of rolls are not negative. -/
theorem zero_le_of_several (several : ¬∃ term, reading.formula.IsLone term)
    (ends : (distributionFrom draw reading (.whole runs)).Ends state histogram last) :
    ∀ entry ∈ histogram, (Number.whole 0).le entry.2 = true := by
  obtain ⟨-, counts, -, rfl⟩ := (distributionFrom_ends_of_several several).mp ends
  intro entry member
  obtain ⟨⟨total, count⟩, -, rfl⟩ := List.mem_map.mp member
  rw [Number.le_whole]
  exact decide_eq_true (Int.natCast_nonneg count)

/-- Each total of a lone die is given the same share of the runs. -/
theorem exists_share_of_ends (lone : reading.formula.IsLone term)
    (ends : (distributionFrom draw reading (.whole runs)).Ends state histogram last) :
    ∃ share, wholeQuotient runs term.face.count = .ok share ∧
      ∀ entry ∈ histogram, entry.2 = .real share :=
  Formula.exists_share lone ((distributionFrom_ends_of_lone lone).mp ends).1

/-- Shares of runs that are not below zero are not negative. -/
theorem zero_le_of_lone (lone : reading.formula.IsLone term) (above : 0 ≤ runs)
    (ends : (distributionFrom draw reading (.whole runs)).Ends state histogram last) :
    ∀ entry ∈ histogram, (Number.whole 0).le entry.2 = true := by
  obtain ⟨share, divided, same⟩ := exists_share_of_ends lone ends
  intro entry member
  rw [same entry member]
  exact Number.zero_le_real (nonnegative_of_wholeQuotient above divided)

/-- Shares of runs below zero are negative. -/
theorem lt_zero_of_lone (lone : reading.formula.IsLone term)
    (normal : twoTo 52 * term.face.count ≤ scale) (below : runs < 0)
    (ends : (distributionFrom draw reading (.whole runs)).Ends state histogram last) :
    ∀ entry ∈ histogram, entry.2.lt (.whole 0) = true := by
  obtain ⟨share, divided, same⟩ := exists_share_of_ends lone ends
  intro entry member
  rw [same entry member]
  obtain ⟨number, rounds⟩ := exists_rounds_of_wholeQuotient term.face.count_pos normal divided
  apply Number.real_lt_zero rounds.is
  -- What is rounded is negative, and the error is only a small part of it.
  have negative : (runs : ℚ) / (term.face.count : Int) < 0 :=
    div_neg_of_neg_of_pos (by exact_mod_cast below) (by exact_mod_cast term.face.count_pos)
  have error := rounds.error_mul_le (show 2 ≤ twoTo 53 by decide)
  rw [abs_of_neg negative, Nat.cast_two] at error
  have upper := le_abs_self (number - (runs : ℚ) / (term.face.count : Int))
  linarith

/-- Where a lone die is not astronomically large, no number of runs out of range is held. -/
theorem between_of_runsHeld (lone : reading.formula.IsLone term)
    (normal : twoTo 52 * term.face.count ≤ scale) (held : RunsHeld source reading runs state) :
    0 ≤ runs ∧ runs ≤ mostTrials := by
  have order : 0 ≤ mostTrials := by decide
  have positive := term.face.count_pos
  -- A number in range has a share, which then is the share of the runs as well.
  have few : (min (max 0 runs) mostTrials).natAbs < reach * term.face.count := by
    have limit : mostTrials.natAbs < reach := Binary64.lt_reach_of_short (by decide)
    have scaled := Nat.mul_le_mul_left reach positive
    omega
  have divisor : (term.face.count : Int) ≠ 0 := by omega
  obtain ⟨inside, within⟩ := (exists_wholeQuotient_eq_ok divisor).mpr few
  have exact := (Formula.exactDistribution_of_lone lone).mpr ⟨inside, within, rfl⟩
  have ends := (held _ state).mpr ((distributionFrom_ends_of_lone lone).mpr ⟨exact, rfl⟩)
  obtain ⟨share, otherDivided, divided⟩ := Formula.exists_share_of_same lone
    ((distributionFrom_ends_of_lone lone).mp ends).1 exact
  -- Numbers that differ by one at least are too far apart for that, as long as one is in range.
  have power : (twoTo 53 : Nat) = 9007199254740992 := by decide
  have most : mostTrials = 1000000 := rfl
  by_contra beyond
  rcases lt_or_ge runs 0 with below | above
  · obtain ⟨_, _, is, otherIs, less⟩ :=
      shares_lt positive normal (by rw [power]; omega) otherDivided divided
    exact absurd (is.unique otherIs) less.ne
  · obtain ⟨_, _, is, otherIs, less⟩ :=
      shares_lt positive normal (by rw [power]; omega) divided otherDivided
    exact absurd (is.unique otherIs) less.ne

/-- How a number of runs is taken where rolls are made. -/
structure RunsRolled (source : Source σ) (reading : Reading) (runs : Int) (state : σ) : Prop where
  /-- Every number that can be written is brought into range. -/
  held : RunsHeld source reading runs state ↔ (reading.formula.Writable → Decimal.Writable runs)
  /-- No frequency is negative. -/
  frequencies : ∀ {histogram last},
    (distributionFrom source.draw reading (.whole runs)).Ends state histogram last →
      ∀ entry ∈ histogram, (Number.whole 0).le entry.2 = true

/--
How a number of runs is taken by a lone die.

Of a die with more than `2 ^ 1022` values the shares are too small to be told apart for certain.
-/
structure RunsShared (source : Source σ) (reading : Reading) (term : Term) (runs : Int)
    (state : σ) : Prop where
  /-- Numbers in range are taken as they are. -/
  held : 0 ≤ runs → runs ≤ mostTrials → RunsHeld source reading runs state
  /-- No other number is brought into range. -/
  between : twoTo 52 * term.face.count ≤ scale → RunsHeld source reading runs state →
    0 ≤ runs ∧ runs ≤ mostTrials
  /-- Without a minus in front of the number no frequency is negative. -/
  frequencies : 0 ≤ runs → ∀ {histogram last},
    (distributionFrom source.draw reading (.whole runs)).Ends state histogram last →
      ∀ entry ∈ histogram, (Number.whole 0).le entry.2 = true
  /-- With one in front of it every frequency is. -/
  negative : twoTo 52 * term.face.count ≤ scale → runs < 0 → ∀ {histogram last},
    (distributionFrom source.draw reading (.whole runs)).Ends state histogram last →
      ∀ entry ∈ histogram, entry.2.lt (.whole 0) = true

/-- A number of runs is brought into range where rolls are made, and a lone die takes it as it is. -/
theorem distributionFrom_runs (source : Source σ) (reading : Reading) (runs : Int) (state : σ) :
    ((¬∃ term, reading.formula.IsLone term) → RunsRolled source reading runs state) ∧
      ∀ term, reading.formula.IsLone term → RunsShared source reading term runs state := by
  constructor
  · intro several
    exact ⟨runsHeld_iff_of_several several, zero_le_of_several several⟩
  · intro term lone
    exact
      { held := runsHeld_of_between
        between := between_of_runsHeld lone
        frequencies := fun above => zero_le_of_lone lone above
        negative := fun normal below => lt_zero_of_lone lone normal below }

/-- Minus three runs of two dice are brought into range, twelve of one die are in it, and minus six of
one die are left out of it. -/
theorem distributionFrom_runs_six :
    let face : Face := .numeric 6 (by decide)
    let pair : Reading := ⟨⟨[⟨.plus, 2, face, by decide⟩], 0⟩, []⟩
    let die : Reading := ⟨⟨[⟨.plus, 1, face, by decide⟩], 0⟩, []⟩
    (RunsHeld Source.dice pair (-3) .standard ∧ RunsHeld Source.dice die 12 .standard) ∧
      ¬RunsHeld Source.dice die (-6) .standard := by
  intro face pair die
  have several : ¬∃ term, pair.formula.IsLone term := by
    rw [← Formula.isSingleDie_iff]
    decide
  have lone : die.formula.IsLone ⟨.plus, 1, face, by decide⟩ := ⟨rfl, rfl, rfl⟩
  have rolled := (distributionFrom_runs Source.dice pair (-3) .standard).1 several
  have shared := (distributionFrom_runs Source.dice die 12 .standard).2 _ lone
  have taken := (distributionFrom_runs Source.dice die (-6) .standard).2 _ lone
  refine ⟨⟨rolled.held.mpr fun _ => ?_, shared.held (by decide) (by decide)⟩, fun held => ?_⟩
  · decide +kernel
  · exact absurd (taken.between (by decide +kernel) held).1 (by decide)

/-- Minus six runs of a die give each of its totals a frequency of minus one, and no runs give it
none. -/
theorem distribution_belowZero :
    let die : Reading := ⟨⟨[⟨.plus, 1, .numeric 6 (by decide), by decide⟩], 0⟩, []⟩
    let shared (share : Binary64) : Histogram :=
      [(1, .real share), (2, .real share), (3, .real share), (4, .real share), (5, .real share),
        (6, .real share)]
    (distribution die (.whole (-6)) .standard).1.result = .ok (shared (.ofInt (-1))) ∧
      (distribution die (.whole (min (max 0 (-6)) mostTrials)) .standard).1.result =
        .ok (shared (.ofInt 0)) ∧
      (Number.real (.ofInt (-1))).lt (.whole 0) = true ∧
      ¬RunsHeld Source.dice die (-6) .standard := by
  intro die shared
  have lone : die.formula.IsLone ⟨.plus, 1, .numeric 6 (by decide), by decide⟩ := ⟨rfl, rfl, rfl⟩
  have totals : Formula.singleTotals ⟨.plus, .numeric 6 (by decide)⟩ 0 = [1, 2, 3, 4, 5, 6] :=
    List.mergeSort_eq_self (· ≤ ·) (by decide)
  have exact {runs : Int} {share : Binary64} (divided : wholeQuotient runs 6 = .ok share) :
      (distribution die (.whole runs) .standard).1.result = .ok (shared share) := by
    have known : die.formula.exactDistribution (.whole runs) = .ok (shared share) :=
      (Formula.exactDistribution_of_lone lone).mpr ⟨share, divided, by rw [totals]; rfl⟩
    rw [distribution, distributionFrom_of_lone lone known]
  refine ⟨exact (by decide +kernel), exact (by decide +kernel), by decide +kernel, fun held => ?_⟩
  exact absurd (between_of_runsHeld lone (by decide +kernel) held).1 (by decide)

end Runs

end DiceLab
