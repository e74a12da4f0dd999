import DiceLab.Proofs.Binary64.Overflow
import DiceLab.Proofs.Candidate.Scoring
import DiceLab.Proofs.Formula.Size
import DiceLab.Proofs.Repetition

/-! A formula can be scored exactly when its numbers stay within the finite binary64 values. -/

namespace DiceLab

open Binary64 (reach)

/-- A face has a mean exactly when the sum of its ends is below twice the bound. -/
theorem Face.exists_mean_eq_ok {face : Face} :
    (∃ mean, face.mean = .ok mean) ↔ (face.low + face.high).natAbs < reach * 2 :=
  exists_wholeQuotient_eq_ok (by decide : (2 : Int) ≠ 0)

namespace Term

/-- A term whose dice and the mean of whose face have finite values. -/
structure Finite (term : Term) : Prop where
  /-- The number of dice has a finite value. -/
  count : term.count < reach
  /-- The mean of the face has one. -/
  mean : (term.face.low + term.face.high).natAbs < reach * 2

/-- A term adds to the mean exactly when its numbers have finite values. -/
theorem exists_average_eq_ok {term : Term} :
    (∃ average, term.average = .ok average) ↔ term.Finite := by
  -- The sign does not change how far the number of dice is from zero.
  have size : (term.sign.factor * term.count).natAbs = term.count := by
    cases term.sign with
    | plus => simp [Sign.factor]
    | minus => simp [Sign.factor]
  have product (mean : Binary64) : (∃ average,
      (do return (← wholeToReal (term.sign.factor * term.count)).mul mean) =
        Except.ok average) ↔ term.count < reach := by
    rw [exists_bind_pure_eq_ok, exists_wholeToReal_eq_ok, size]
  rw [average, exists_bind_eq_ok fun mean _ => product mean, Face.exists_mean_eq_ok]
  constructor
  · rintro ⟨mean, count⟩
    exact ⟨count, mean⟩
  · intro finite
    exact ⟨finite.mean, finite.count⟩

end Term

namespace Formula

/-- Terms are added to a mean exactly when each of them adds to it. -/
theorem exists_foldlM_average_eq_ok {terms : List Term} {start : Binary64} :
    (∃ average, terms.foldlM (fun total term => do return total.add (← term.average)) start =
        Except.ok average) ↔ ∀ term ∈ terms, term.Finite := by
  -- What was added before makes no difference, so the start stays quantified over.
  induction terms generalizing start with
  | nil => simp [pure, Except.pure]
  | cons term rest ih =>
    have first (total : Binary64) : (∃ next,
        (do return total.add (← term.average)) = Except.ok next) ↔ term.Finite := by
      rw [exists_bind_pure_eq_ok, Term.exists_average_eq_ok]
    rw [List.foldlM_cons, exists_bind_eq_ok fun _ _ => ih, first, List.forall_mem_cons]

/-- A formula has statistics exactly when its modifier and its terms have finite values. -/
theorem exists_stats_eq_ok {formula : Formula} :
    (∃ stats, formula.stats = .ok stats) ↔
      formula.modifier.natAbs < reach ∧ ∀ term ∈ formula.terms, term.Finite := by
  have average : (∃ average, formula.average = .ok average) ↔
      formula.modifier.natAbs < reach ∧ ∀ term ∈ formula.terms, term.Finite := by
    rw [Formula.average, exists_bind_eq_ok fun _ _ => exists_foldlM_average_eq_ok,
      exists_wholeToReal_eq_ok]
  -- Only the mean can fail, the ends of the range are whole numbers.
  rw [stats, exists_bind_pure_eq_ok, average]

end Formula

/-- A range is scored for a target exactly when its deviation is finite in widths of the target. -/
theorem Fit.exists_score_eq_ok {stats : Stats} {target : Target} :
    (∃ score, Fit.score stats target = .ok score) ↔
      deviation stats target < reach * (width target).natAbs := by
  constructor
  · rintro ⟨score, ok⟩
    -- The score is a quotient, which exists when it is below the bound.
    exact (score_eq_ok.mp ok).1
  · intro below
    exact ⟨_, score_eq_ok.mpr ⟨below, rfl⟩⟩

namespace Shape

/-- There are no more kinds of faces than dice. -/
theorem variety_le_diceCount (formula : Formula) : variety formula ≤ formula.diceCount := by
  -- There are no more kinds than terms, and no term is without dice.
  have kinds : variety formula ≤ (formula.terms.map Term.face).length :=
    (eraseDupsBy_sublist _ _).length_le
  have dice : (formula.terms.map Term.count).length ≤ formula.diceCount := by
    apply length_le_naturalTotal
    intro count member
    obtain ⟨term, -, rfl⟩ := List.mem_map.mp member
    exact term.positive
  rw [List.length_map] at kinds dice
  exact Nat.le_trans kinds dice

/-- A raw score is computed exactly when the number of dice and the mean number of their values are
finite. -/
theorem exists_rawScore_eq_ok {formula : Formula} (several : 1 < formula.diceCount) :
    (∃ score, rawScore formula = .ok score) ↔
      formula.diceCount - 1 < reach ∧ faceTotal formula < reach * formula.diceCount := by
  have nonzero : (formula.diceCount : Int) ≠ 0 := by omega
  have dice : ((formula.diceCount : Int) - 1).natAbs = formula.diceCount - 1 := by omega
  have kinds := variety_le_diceCount formula
  have bonus (meanFaces weight : Binary64) : (∃ score, (do
      let bonus := (← wholeToReal (variety formula - 1)).mul varietyBonus
      return (weight.mul diceWeight |>.add bonus).sub (penalty meanFaces)) = Except.ok score) ↔
        ((variety formula : Int) - 1).natAbs < reach := by
    rw [exists_bind_pure_eq_ok, exists_wholeToReal_eq_ok]
  rw [rawScore, exists_bind_eq_ok fun _ _ => exists_bind_eq_ok fun _ _ => bonus _ _,
    exists_wholeQuotient_eq_ok nonzero, exists_wholeToReal_eq_ok]
  rw [dice, Int.natAbs_natCast, Int.natAbs_natCast]
  -- The number of kinds is finite wherever the number of dice is.
  constructor
  · rintro ⟨values, number, -⟩
    exact ⟨number, values⟩
  · rintro ⟨number, values⟩
    exact ⟨values, number, by omega⟩

/-- The shape of several dice is scored exactly when their number and the mean number of their values
are finite. -/
theorem exists_score_eq_ok {formula : Formula} :
    (∃ score, Shape.score formula = .ok score) ↔ (1 < formula.diceCount →
      formula.diceCount - 1 < reach ∧ faceTotal formula < reach * formula.diceCount) := by
  rw [Shape.score]
  -- At most one die scores nothing, without a division.
  split
  · rename_i few
    simp [pure, Except.pure, Nat.not_lt.mpr few]
  · rename_i several
    rw [exists_bind_pure_eq_ok, exists_rawScore_eq_ok (Nat.not_le.mp several)]
    exact ⟨fun holds _ => holds, fun holds => holds (Nat.not_le.mp several)⟩

end Shape

/-- Twice the bound is written with far fewer digits than a number may have. -/
theorem reach_le_tenTo : reach * 2 ≤ tenTo Decimal.digitLimit := by decide +kernel

/-- A term with finite values can be written. -/
theorem Term.Finite.writable {term : Term} (finite : term.Finite) : term.Writable := by
  have short := reach_le_tenTo
  have count := finite.count
  have mean := finite.mean
  refine ⟨?_, ?_⟩
  · unfold Decimal.Writable
    omega
  · -- A numeric face has fewer sides than its ends add up to, or it shows 0 and 1.
    cases face : term.face with
    | fudge => trivial
    | numeric sides positive =>
      unfold Face.Writable Decimal.Writable
      simp only [face, Face.low, Face.high] at mean
      split at mean
      · rename_i two
        have small : 2 < tenTo Decimal.digitLimit := by decide +kernel
        simpa [two, Face.binarySides] using small
      · omega

/--
A formula that can be scored for a target.

Its numbers, the mean of its faces and its deviation in widths of the target stay below the bound of
the finite binary64 values.
-/
structure Formula.Scorable (formula : Formula) (target : Target) : Prop where
  /-- The modifier has a finite value. -/
  modifier : formula.modifier.natAbs < reach
  /-- So have the number of dice of each term and the mean of its face. -/
  terms : ∀ term ∈ formula.terms, term.Finite
  /-- The ends of the range are not too many widths away from those of the target. -/
  deviation : (target.min - formula.min).natAbs + (target.max - formula.max).natAbs <
    reach * (Fit.width target).natAbs
  /-- Of several dice, the number and the mean number of values are finite. -/
  dice : 1 < formula.diceCount →
    formula.diceCount - 1 < reach ∧ Shape.faceTotal formula < reach * formula.diceCount

namespace Formula

variable {formula : Formula} {target : Target}

/-- A formula that can be scored can be written. -/
theorem Scorable.writable (scorable : formula.Scorable target) : formula.Writable := by
  have short := reach_le_tenTo
  have modifier := scorable.modifier
  refine ⟨fun term member => (scorable.terms term member).writable, ?_⟩
  unfold Decimal.Writable
  omega

/-- A formula can be scored when its size and the ends of the target are small against the bound. -/
theorem scorable_of_size
    (small : target.min.natAbs + target.max.natAbs + 2 * formula.size < reach) :
    formula.Scorable target where
  modifier := by
    have part : formula.modifier.natAbs ≤ formula.size := Nat.le_add_right _ _
    omega
  terms := by
    intro term member
    obtain ⟨dice, values⟩ := le_size member
    obtain ⟨low, high⟩ := term.face.natAbs_le_count
    -- The ends of a face are each at most as large as the formula.
    exact ⟨by omega, by omega⟩
  deviation := by
    obtain ⟨least, most⟩ := formula.natAbs_bounds_le
    -- The width only helps, since it is at least one.
    have wide : 1 ≤ (Fit.width target).natAbs := by
      unfold Fit.width
      omega
    have bound := Nat.le_mul_of_pos_right reach wide
    omega
  dice := by
    intro several
    have dice := formula.diceCount_le_faceTotal
    have values : Shape.faceTotal formula ≤ formula.size := Nat.le_add_left _ _
    have bound : reach ≤ reach * formula.diceCount := Nat.le_mul_of_pos_right reach (by omega)
    exact ⟨by omega, by omega⟩

end Formula

/-- Four times this power of ten stays below the bound. -/
theorem tenTo_lt_reach : 4 * tenTo 307 < reach := by decide +kernel

/-- Whatever a text of few code points says, it can be scored for a target that is not large. -/
theorem Reading.exists_scorable_of_short {text : Text} {target : Target}
    (short : text.length ≤ 307)
    (ends : target.min.natAbs ≤ tenTo 307 ∧ target.max.natAbs ≤ tenTo 307) :
    ∃ reading, (ofText text).result = .ok reading ∧ reading.formula.Scorable target := by
  have readable : text.length ≤ Decimal.digitLimit := Nat.le_trans short (by decide)
  obtain ⟨reading, read⟩ := exists_ofText_eq_ok readable
  -- The size of the formula counts twice, and it is below the power as the two ends are.
  have few := Nat.le_trans text.figures_le_length short
  have small := Nat.lt_of_lt_of_le (size_lt_of_ofText read) (tenTo_le few)
  have room := tenTo_lt_reach
  exact ⟨reading, read, Formula.scorable_of_size (by omega)⟩

/-- Scoring succeeds exactly on the formulas that can be scored. -/
theorem Candidate.exists_ofFormula_eq_ok {formula : Formula} {target : Target} :
    (∃ candidate, ofFormula formula target = .ok candidate) ↔ formula.Scorable target := by
  -- Statistics and the two scores have a condition each, and the text follows from these.
  simp only [ofFormula, bind_eq_ok, Formula.text_eq_ok]
  constructor
  · rintro ⟨candidate, stats, known, fitScore, fit, shapeScore, shape, -⟩
    obtain ⟨modifier, terms⟩ := Formula.exists_stats_eq_ok.mp ⟨stats, known⟩
    obtain ⟨least, most⟩ := Formula.bounds_of_stats known
    have deviation := Fit.exists_score_eq_ok.mp ⟨fitScore, fit⟩
    rw [Fit.deviation, least, most] at deviation
    exact ⟨modifier, terms, deviation, Shape.exists_score_eq_ok.mp ⟨shapeScore, shape⟩⟩
  · intro scorable
    obtain ⟨stats, known⟩ := Formula.exists_stats_eq_ok.mpr ⟨scorable.modifier, scorable.terms⟩
    obtain ⟨least, most⟩ := Formula.bounds_of_stats known
    have deviation := scorable.deviation
    rw [← least, ← most] at deviation
    obtain ⟨fitScore, fit⟩ := Fit.exists_score_eq_ok.mpr deviation
    obtain ⟨shapeScore, shape⟩ := Shape.exists_score_eq_ok.mpr scorable.dice
    exact ⟨_, stats, known, fitScore, fit, shapeScore, shape, _, ⟨scorable.writable, rfl⟩, rfl⟩

/-- A text is scored exactly when it is read and its formula can be scored. -/
theorem Candidate.exists_ofText_eq_ok {text : Text} {target : Target} :
    (∃ candidate, (ofDraft (.ofText text) target).result = .ok candidate) ↔
      ∃ reading, (Reading.ofText text).result = .ok reading ∧ reading.formula.Scorable target := by
  simp only [ofDraft_eq_ok, Draft.read_ofText, ← exists_ofFormula_eq_ok]
  constructor
  · rintro ⟨candidate, reading, read, scored⟩
    exact ⟨reading, read, candidate, scored⟩
  · rintro ⟨reading, read, candidate, scored⟩
    exact ⟨candidate, reading, read, scored⟩

/-- A candidate whose ends can be written. -/
def Candidate.Showable (candidate : Candidate) : Prop :=
  Decimal.Writable candidate.stats.min ∧ Decimal.Writable candidate.stats.max

end DiceLab
